import ManagedCode.Effect.Call
import ManagedCode.Effect.Memory
import ManagedCode.Effect.Object
import ManagedCode.Effect.Transfer

set_option autoImplicit false

/-! # The effect of an operation

`Site.perform` checks an operation against the stack and gives its effect.
-/

namespace ManagedCode.Site

/-- The effect of an operation on a stack. Modifiers and remarks are no operations of their own. -/
def perform (site : Site) (operation : Operation) (s : Stack) : Except Fault Effect :=
  match operation with
  | .nop => .ok ⟨s, .nop, []⟩
  | .breakpoint => .ok ⟨s, .breakpoint, []⟩
  | .loadArg index => site.loadArg index s
  | .loadArgAddress index => site.loadArgAddress index s
  | .storeArg index => site.storeArg index s
  | .loadLocal index => site.loadLocal index s
  | .loadLocalAddress index => site.loadLocalAddress index s
  | .storeLocal index => site.storeLocal index s
  | .argList => site.argList s
  | .loadNull => pushing s .null .loadNull
  | .loadInt32 value => pushing s .int32 (.loadInt32 value)
  | .loadInt64 value => pushing s .int64 (.loadInt64 value)
  | .loadFloat32 bits => pushing s .float (.loadFloat32 bits)
  | .loadFloat64 bits => pushing s .float (.loadFloat64 bits)
  | .loadString token => site.loadString token s
  | .loadToken token => site.loadToken token s
  | .dup => dup s
  | .pop => pop s
  | .binary op => site.binary op s
  | .shift op => shift op s
  | .unary op => unary op s
  | .convert conversion => site.convert conversion s
  | .checkFinite => checkFinite s
  | .compare op => site.compare op s
  | .branch target => site.branch target s
  | .branchIf condition target => site.branchIf condition target s
  | .branchCompare op target => site.branchCompare op target s
  | .switch targets => site.switch targets s
  | .leave target => site.leave target s
  | .endFinally => site.endFinally s
  | .endFilter => site.endFilter s
  | .throw => throw s
  | .rethrow => site.rethrow s
  | .ret => site.ret s
  | .jump token => site.jump token s
  | .call isVirtual token => site.call isVirtual token s
  | .callIndirect token => site.callIndirect token s
  | .newObject token => site.newObject token s
  | .loadFunction token => site.loadFunction token s
  | .loadVirtualFunction token => site.loadVirtualFunction token s
  | .loadIndirect access => site.loadIndirect access s
  | .storeIndirect access => site.storeIndirect access s
  | .loadObject token => site.loadObject token s
  | .storeObject token => site.storeObject token s
  | .copyObject token => site.copyObject token s
  | .initObject token => site.initObject token s
  | .sizeOf token => site.sizeOf token s
  | .localAlloc => site.localAlloc s
  | .copyBlock => site.copyBlock s
  | .initBlock => site.initBlock s
  | .loadField token => site.loadField token s
  | .loadFieldAddress token => site.loadFieldAddress token s
  | .storeField token => site.storeField token s
  | .loadStatic token => site.loadStatic token s
  | .loadStaticAddress token => site.loadStaticAddress token s
  | .storeStatic token => site.storeStatic token s
  | .castClass token => site.cast token s .castClass
  | .isInstance token => site.cast token s .isInstance
  | .box token => site.box token s
  | .unbox token => site.unbox token s
  | .unboxAny token => site.unboxAny token s
  | .newArray token => site.newArray token s
  | .arrayLength => arrayLength s
  | .loadElement element => site.loadElement element s
  | .loadElementAddress token => site.loadElementAddress token s
  | .storeElement element => site.storeElement element s
  | .makeTypedRef token => site.makeTypedRef token s
  | .typedRefValue token => site.typedRefValue token s
  | .typedRefType => typedRefType s
  | .modify _ | .remark => .error (.about .modifier)

end ManagedCode.Site
