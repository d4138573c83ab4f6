import ManagedCode.Opcode.Basic

set_option autoImplicit false

/-! # The opcode catalogue

One entry for every opcode: its index, mnemonic, stack counts and operand layout.

An opcode of one byte has that byte as its index. An opcode of two bytes starts with
`escapeByte`, and its index is `escapedBase` plus the second byte, so that one index space
covers both. `Opcode.ofIndex?` reads an index back, and `Opcode.ofIndex?_index` says that
this recovers the opcode.
-/

namespace ManagedCode

/-- First byte of every two-byte opcode. -/
def escapeByte : UInt8 := 0xFE

/-- Added to the second byte of a two-byte opcode to form its index. -/
def escapedBase : Nat := 0x100

/-- A row of the catalogue. -/
structure CatalogueEntry where
  index : Nat
  mnemonic : String
  pops : StackCount
  pushes : StackCount
  layout : Layout

namespace Opcode

/-- The catalogue. -/
def entry : Opcode → CatalogueEntry
  | .nop => ⟨0x000, "nop", 0, 0, .none⟩
  | .breakpoint => ⟨0x001, "break", 0, 0, .none⟩
  | .ldarg0 => ⟨0x002, "ldarg.0", 0, 1, .none⟩
  | .ldarg1 => ⟨0x003, "ldarg.1", 0, 1, .none⟩
  | .ldarg2 => ⟨0x004, "ldarg.2", 0, 1, .none⟩
  | .ldarg3 => ⟨0x005, "ldarg.3", 0, 1, .none⟩
  | .ldloc0 => ⟨0x006, "ldloc.0", 0, 1, .none⟩
  | .ldloc1 => ⟨0x007, "ldloc.1", 0, 1, .none⟩
  | .ldloc2 => ⟨0x008, "ldloc.2", 0, 1, .none⟩
  | .ldloc3 => ⟨0x009, "ldloc.3", 0, 1, .none⟩
  | .stloc0 => ⟨0x00A, "stloc.0", 1, 0, .none⟩
  | .stloc1 => ⟨0x00B, "stloc.1", 1, 0, .none⟩
  | .stloc2 => ⟨0x00C, "stloc.2", 1, 0, .none⟩
  | .stloc3 => ⟨0x00D, "stloc.3", 1, 0, .none⟩
  | .ldargS => ⟨0x00E, "ldarg.s", 0, 1, .uint8⟩
  | .ldargaS => ⟨0x00F, "ldarga.s", 0, 1, .uint8⟩
  | .stargS => ⟨0x010, "starg.s", 1, 0, .uint8⟩
  | .ldlocS => ⟨0x011, "ldloc.s", 0, 1, .uint8⟩
  | .ldlocaS => ⟨0x012, "ldloca.s", 0, 1, .uint8⟩
  | .stlocS => ⟨0x013, "stloc.s", 1, 0, .uint8⟩
  | .ldnull => ⟨0x014, "ldnull", 0, 1, .none⟩
  | .ldcI4M1 => ⟨0x015, "ldc.i4.m1", 0, 1, .none⟩
  | .ldcI40 => ⟨0x016, "ldc.i4.0", 0, 1, .none⟩
  | .ldcI41 => ⟨0x017, "ldc.i4.1", 0, 1, .none⟩
  | .ldcI42 => ⟨0x018, "ldc.i4.2", 0, 1, .none⟩
  | .ldcI43 => ⟨0x019, "ldc.i4.3", 0, 1, .none⟩
  | .ldcI44 => ⟨0x01A, "ldc.i4.4", 0, 1, .none⟩
  | .ldcI45 => ⟨0x01B, "ldc.i4.5", 0, 1, .none⟩
  | .ldcI46 => ⟨0x01C, "ldc.i4.6", 0, 1, .none⟩
  | .ldcI47 => ⟨0x01D, "ldc.i4.7", 0, 1, .none⟩
  | .ldcI48 => ⟨0x01E, "ldc.i4.8", 0, 1, .none⟩
  | .ldcI4S => ⟨0x01F, "ldc.i4.s", 0, 1, .int8⟩
  | .ldcI4 => ⟨0x020, "ldc.i4", 0, 1, .int32⟩
  | .ldcI8 => ⟨0x021, "ldc.i8", 0, 1, .int64⟩
  | .ldcR4 => ⟨0x022, "ldc.r4", 0, 1, .float32⟩
  | .ldcR8 => ⟨0x023, "ldc.r8", 0, 1, .float64⟩
  | .dup => ⟨0x025, "dup", 1, 2, .none⟩
  | .pop => ⟨0x026, "pop", 1, 0, .none⟩
  | .jmp => ⟨0x027, "jmp", 0, 0, .token⟩
  | .call => ⟨0x028, "call", .varies, .varies, .token⟩
  | .calli => ⟨0x029, "calli", .varies, .varies, .token⟩
  | .ret => ⟨0x02A, "ret", .varies, 0, .none⟩
  | .brS => ⟨0x02B, "br.s", 0, 0, .shortBranch⟩
  | .brfalseS => ⟨0x02C, "brfalse.s", 1, 0, .shortBranch⟩
  | .brtrueS => ⟨0x02D, "brtrue.s", 1, 0, .shortBranch⟩
  | .beqS => ⟨0x02E, "beq.s", 2, 0, .shortBranch⟩
  | .bgeS => ⟨0x02F, "bge.s", 2, 0, .shortBranch⟩
  | .bgtS => ⟨0x030, "bgt.s", 2, 0, .shortBranch⟩
  | .bleS => ⟨0x031, "ble.s", 2, 0, .shortBranch⟩
  | .bltS => ⟨0x032, "blt.s", 2, 0, .shortBranch⟩
  | .bneUnS => ⟨0x033, "bne.un.s", 2, 0, .shortBranch⟩
  | .bgeUnS => ⟨0x034, "bge.un.s", 2, 0, .shortBranch⟩
  | .bgtUnS => ⟨0x035, "bgt.un.s", 2, 0, .shortBranch⟩
  | .bleUnS => ⟨0x036, "ble.un.s", 2, 0, .shortBranch⟩
  | .bltUnS => ⟨0x037, "blt.un.s", 2, 0, .shortBranch⟩
  | .br => ⟨0x038, "br", 0, 0, .branch⟩
  | .brfalse => ⟨0x039, "brfalse", 1, 0, .branch⟩
  | .brtrue => ⟨0x03A, "brtrue", 1, 0, .branch⟩
  | .beq => ⟨0x03B, "beq", 2, 0, .branch⟩
  | .bge => ⟨0x03C, "bge", 2, 0, .branch⟩
  | .bgt => ⟨0x03D, "bgt", 2, 0, .branch⟩
  | .ble => ⟨0x03E, "ble", 2, 0, .branch⟩
  | .blt => ⟨0x03F, "blt", 2, 0, .branch⟩
  | .bneUn => ⟨0x040, "bne.un", 2, 0, .branch⟩
  | .bgeUn => ⟨0x041, "bge.un", 2, 0, .branch⟩
  | .bgtUn => ⟨0x042, "bgt.un", 2, 0, .branch⟩
  | .bleUn => ⟨0x043, "ble.un", 2, 0, .branch⟩
  | .bltUn => ⟨0x044, "blt.un", 2, 0, .branch⟩
  | .switch => ⟨0x045, "switch", 1, 0, .switch⟩
  | .ldindI1 => ⟨0x046, "ldind.i1", 1, 1, .none⟩
  | .ldindU1 => ⟨0x047, "ldind.u1", 1, 1, .none⟩
  | .ldindI2 => ⟨0x048, "ldind.i2", 1, 1, .none⟩
  | .ldindU2 => ⟨0x049, "ldind.u2", 1, 1, .none⟩
  | .ldindI4 => ⟨0x04A, "ldind.i4", 1, 1, .none⟩
  | .ldindU4 => ⟨0x04B, "ldind.u4", 1, 1, .none⟩
  | .ldindI8 => ⟨0x04C, "ldind.i8", 1, 1, .none⟩
  | .ldindI => ⟨0x04D, "ldind.i", 1, 1, .none⟩
  | .ldindR4 => ⟨0x04E, "ldind.r4", 1, 1, .none⟩
  | .ldindR8 => ⟨0x04F, "ldind.r8", 1, 1, .none⟩
  | .ldindRef => ⟨0x050, "ldind.ref", 1, 1, .none⟩
  | .stindRef => ⟨0x051, "stind.ref", 2, 0, .none⟩
  | .stindI1 => ⟨0x052, "stind.i1", 2, 0, .none⟩
  | .stindI2 => ⟨0x053, "stind.i2", 2, 0, .none⟩
  | .stindI4 => ⟨0x054, "stind.i4", 2, 0, .none⟩
  | .stindI8 => ⟨0x055, "stind.i8", 2, 0, .none⟩
  | .stindR4 => ⟨0x056, "stind.r4", 2, 0, .none⟩
  | .stindR8 => ⟨0x057, "stind.r8", 2, 0, .none⟩
  | .add => ⟨0x058, "add", 2, 1, .none⟩
  | .sub => ⟨0x059, "sub", 2, 1, .none⟩
  | .mul => ⟨0x05A, "mul", 2, 1, .none⟩
  | .div => ⟨0x05B, "div", 2, 1, .none⟩
  | .divUn => ⟨0x05C, "div.un", 2, 1, .none⟩
  | .rem => ⟨0x05D, "rem", 2, 1, .none⟩
  | .remUn => ⟨0x05E, "rem.un", 2, 1, .none⟩
  | .and => ⟨0x05F, "and", 2, 1, .none⟩
  | .or => ⟨0x060, "or", 2, 1, .none⟩
  | .xor => ⟨0x061, "xor", 2, 1, .none⟩
  | .shl => ⟨0x062, "shl", 2, 1, .none⟩
  | .shr => ⟨0x063, "shr", 2, 1, .none⟩
  | .shrUn => ⟨0x064, "shr.un", 2, 1, .none⟩
  | .neg => ⟨0x065, "neg", 1, 1, .none⟩
  | .not => ⟨0x066, "not", 1, 1, .none⟩
  | .convI1 => ⟨0x067, "conv.i1", 1, 1, .none⟩
  | .convI2 => ⟨0x068, "conv.i2", 1, 1, .none⟩
  | .convI4 => ⟨0x069, "conv.i4", 1, 1, .none⟩
  | .convI8 => ⟨0x06A, "conv.i8", 1, 1, .none⟩
  | .convR4 => ⟨0x06B, "conv.r4", 1, 1, .none⟩
  | .convR8 => ⟨0x06C, "conv.r8", 1, 1, .none⟩
  | .convU4 => ⟨0x06D, "conv.u4", 1, 1, .none⟩
  | .convU8 => ⟨0x06E, "conv.u8", 1, 1, .none⟩
  | .callvirt => ⟨0x06F, "callvirt", .varies, .varies, .token⟩
  | .cpobj => ⟨0x070, "cpobj", 2, 0, .token⟩
  | .ldobj => ⟨0x071, "ldobj", 1, 1, .token⟩
  | .ldstr => ⟨0x072, "ldstr", 0, 1, .token⟩
  | .newobj => ⟨0x073, "newobj", .varies, 1, .token⟩
  | .castclass => ⟨0x074, "castclass", 1, 1, .token⟩
  | .isinst => ⟨0x075, "isinst", 1, 1, .token⟩
  | .convRUn => ⟨0x076, "conv.r.un", 1, 1, .none⟩
  | .unbox => ⟨0x079, "unbox", 1, 1, .token⟩
  | .throw => ⟨0x07A, "throw", 1, 0, .none⟩
  | .ldfld => ⟨0x07B, "ldfld", 1, 1, .token⟩
  | .ldflda => ⟨0x07C, "ldflda", 1, 1, .token⟩
  | .stfld => ⟨0x07D, "stfld", 2, 0, .token⟩
  | .ldsfld => ⟨0x07E, "ldsfld", 0, 1, .token⟩
  | .ldsflda => ⟨0x07F, "ldsflda", 0, 1, .token⟩
  | .stsfld => ⟨0x080, "stsfld", 1, 0, .token⟩
  | .stobj => ⟨0x081, "stobj", 2, 0, .token⟩
  | .convOvfI1Un => ⟨0x082, "conv.ovf.i1.un", 1, 1, .none⟩
  | .convOvfI2Un => ⟨0x083, "conv.ovf.i2.un", 1, 1, .none⟩
  | .convOvfI4Un => ⟨0x084, "conv.ovf.i4.un", 1, 1, .none⟩
  | .convOvfI8Un => ⟨0x085, "conv.ovf.i8.un", 1, 1, .none⟩
  | .convOvfU1Un => ⟨0x086, "conv.ovf.u1.un", 1, 1, .none⟩
  | .convOvfU2Un => ⟨0x087, "conv.ovf.u2.un", 1, 1, .none⟩
  | .convOvfU4Un => ⟨0x088, "conv.ovf.u4.un", 1, 1, .none⟩
  | .convOvfU8Un => ⟨0x089, "conv.ovf.u8.un", 1, 1, .none⟩
  | .convOvfIUn => ⟨0x08A, "conv.ovf.i.un", 1, 1, .none⟩
  | .convOvfUUn => ⟨0x08B, "conv.ovf.u.un", 1, 1, .none⟩
  | .box => ⟨0x08C, "box", 1, 1, .token⟩
  | .newarr => ⟨0x08D, "newarr", 1, 1, .token⟩
  | .ldlen => ⟨0x08E, "ldlen", 1, 1, .none⟩
  | .ldelema => ⟨0x08F, "ldelema", 2, 1, .token⟩
  | .ldelemI1 => ⟨0x090, "ldelem.i1", 2, 1, .none⟩
  | .ldelemU1 => ⟨0x091, "ldelem.u1", 2, 1, .none⟩
  | .ldelemI2 => ⟨0x092, "ldelem.i2", 2, 1, .none⟩
  | .ldelemU2 => ⟨0x093, "ldelem.u2", 2, 1, .none⟩
  | .ldelemI4 => ⟨0x094, "ldelem.i4", 2, 1, .none⟩
  | .ldelemU4 => ⟨0x095, "ldelem.u4", 2, 1, .none⟩
  | .ldelemI8 => ⟨0x096, "ldelem.i8", 2, 1, .none⟩
  | .ldelemI => ⟨0x097, "ldelem.i", 2, 1, .none⟩
  | .ldelemR4 => ⟨0x098, "ldelem.r4", 2, 1, .none⟩
  | .ldelemR8 => ⟨0x099, "ldelem.r8", 2, 1, .none⟩
  | .ldelemRef => ⟨0x09A, "ldelem.ref", 2, 1, .none⟩
  | .stelemI => ⟨0x09B, "stelem.i", 3, 0, .none⟩
  | .stelemI1 => ⟨0x09C, "stelem.i1", 3, 0, .none⟩
  | .stelemI2 => ⟨0x09D, "stelem.i2", 3, 0, .none⟩
  | .stelemI4 => ⟨0x09E, "stelem.i4", 3, 0, .none⟩
  | .stelemI8 => ⟨0x09F, "stelem.i8", 3, 0, .none⟩
  | .stelemR4 => ⟨0x0A0, "stelem.r4", 3, 0, .none⟩
  | .stelemR8 => ⟨0x0A1, "stelem.r8", 3, 0, .none⟩
  | .stelemRef => ⟨0x0A2, "stelem.ref", 3, 0, .none⟩
  | .ldelem => ⟨0x0A3, "ldelem", 2, 1, .token⟩
  | .stelem => ⟨0x0A4, "stelem", 3, 0, .token⟩
  | .unboxAny => ⟨0x0A5, "unbox.any", 1, 1, .token⟩
  | .convOvfI1 => ⟨0x0B3, "conv.ovf.i1", 1, 1, .none⟩
  | .convOvfU1 => ⟨0x0B4, "conv.ovf.u1", 1, 1, .none⟩
  | .convOvfI2 => ⟨0x0B5, "conv.ovf.i2", 1, 1, .none⟩
  | .convOvfU2 => ⟨0x0B6, "conv.ovf.u2", 1, 1, .none⟩
  | .convOvfI4 => ⟨0x0B7, "conv.ovf.i4", 1, 1, .none⟩
  | .convOvfU4 => ⟨0x0B8, "conv.ovf.u4", 1, 1, .none⟩
  | .convOvfI8 => ⟨0x0B9, "conv.ovf.i8", 1, 1, .none⟩
  | .convOvfU8 => ⟨0x0BA, "conv.ovf.u8", 1, 1, .none⟩
  | .refanyval => ⟨0x0C2, "refanyval", 1, 1, .token⟩
  | .ckfinite => ⟨0x0C3, "ckfinite", 1, 1, .none⟩
  | .mkrefany => ⟨0x0C6, "mkrefany", 1, 1, .token⟩
  | .ldtoken => ⟨0x0D0, "ldtoken", 0, 1, .token⟩
  | .convU2 => ⟨0x0D1, "conv.u2", 1, 1, .none⟩
  | .convU1 => ⟨0x0D2, "conv.u1", 1, 1, .none⟩
  | .convI => ⟨0x0D3, "conv.i", 1, 1, .none⟩
  | .convOvfI => ⟨0x0D4, "conv.ovf.i", 1, 1, .none⟩
  | .convOvfU => ⟨0x0D5, "conv.ovf.u", 1, 1, .none⟩
  | .addOvf => ⟨0x0D6, "add.ovf", 2, 1, .none⟩
  | .addOvfUn => ⟨0x0D7, "add.ovf.un", 2, 1, .none⟩
  | .mulOvf => ⟨0x0D8, "mul.ovf", 2, 1, .none⟩
  | .mulOvfUn => ⟨0x0D9, "mul.ovf.un", 2, 1, .none⟩
  | .subOvf => ⟨0x0DA, "sub.ovf", 2, 1, .none⟩
  | .subOvfUn => ⟨0x0DB, "sub.ovf.un", 2, 1, .none⟩
  | .endfinally => ⟨0x0DC, "endfinally", 0, 0, .none⟩
  | .leave => ⟨0x0DD, "leave", 0, 0, .branch⟩
  | .leaveS => ⟨0x0DE, "leave.s", 0, 0, .shortBranch⟩
  | .stindI => ⟨0x0DF, "stind.i", 2, 0, .none⟩
  | .convU => ⟨0x0E0, "conv.u", 1, 1, .none⟩
  | .arglist => ⟨0x100, "arglist", 0, 1, .none⟩
  | .ceq => ⟨0x101, "ceq", 2, 1, .none⟩
  | .cgt => ⟨0x102, "cgt", 2, 1, .none⟩
  | .cgtUn => ⟨0x103, "cgt.un", 2, 1, .none⟩
  | .clt => ⟨0x104, "clt", 2, 1, .none⟩
  | .cltUn => ⟨0x105, "clt.un", 2, 1, .none⟩
  | .ldftn => ⟨0x106, "ldftn", 0, 1, .token⟩
  | .ldvirtftn => ⟨0x107, "ldvirtftn", 1, 1, .token⟩
  | .ldarg => ⟨0x109, "ldarg", 0, 1, .uint16⟩
  | .ldarga => ⟨0x10A, "ldarga", 0, 1, .uint16⟩
  | .starg => ⟨0x10B, "starg", 1, 0, .uint16⟩
  | .ldloc => ⟨0x10C, "ldloc", 0, 1, .uint16⟩
  | .ldloca => ⟨0x10D, "ldloca", 0, 1, .uint16⟩
  | .stloc => ⟨0x10E, "stloc", 1, 0, .uint16⟩
  | .localloc => ⟨0x10F, "localloc", 1, 1, .none⟩
  | .endfilter => ⟨0x111, "endfilter", 1, 0, .none⟩
  | .unaligned => ⟨0x112, "unaligned.", 0, 0, .uint8⟩
  | .volatile => ⟨0x113, "volatile.", 0, 0, .none⟩
  | .tail => ⟨0x114, "tail.", 0, 0, .none⟩
  | .initobj => ⟨0x115, "initobj", 1, 0, .token⟩
  | .constrained => ⟨0x116, "constrained.", 0, 0, .token⟩
  | .cpblk => ⟨0x117, "cpblk", 3, 0, .none⟩
  | .initblk => ⟨0x118, "initblk", 3, 0, .none⟩
  | .no => ⟨0x119, "no.", 0, 0, .uint8⟩
  | .rethrow => ⟨0x11A, "rethrow", 0, 0, .none⟩
  | .sizeof => ⟨0x11C, "sizeof", 0, 1, .token⟩
  | .refanytype => ⟨0x11D, "refanytype", 1, 1, .none⟩
  | .readonly => ⟨0x11E, "readonly.", 0, 0, .none⟩
  | .annDataS => ⟨0x122, "ann.data.s", 0, 0, .payload8⟩
  | .annData => ⟨0x123, "ann.data", 0, 0, .payload32⟩

/-- Every opcode, in the order of the catalogue: by ascending index. -/
def all : List Opcode :=
  [.nop, .breakpoint, .ldarg0, .ldarg1, .ldarg2, .ldarg3, .ldloc0, .ldloc1, .ldloc2, .ldloc3,
   .stloc0, .stloc1, .stloc2, .stloc3, .ldargS, .ldargaS, .stargS, .ldlocS, .ldlocaS, .stlocS,
   .ldnull, .ldcI4M1, .ldcI40, .ldcI41, .ldcI42, .ldcI43, .ldcI44, .ldcI45, .ldcI46, .ldcI47,
   .ldcI48, .ldcI4S, .ldcI4, .ldcI8, .ldcR4, .ldcR8, .dup, .pop, .jmp, .call, .calli, .ret,
   .brS, .brfalseS, .brtrueS, .beqS, .bgeS, .bgtS, .bleS, .bltS, .bneUnS, .bgeUnS, .bgtUnS,
   .bleUnS, .bltUnS, .br, .brfalse, .brtrue, .beq, .bge, .bgt, .ble, .blt, .bneUn, .bgeUn,
   .bgtUn, .bleUn, .bltUn, .switch, .ldindI1, .ldindU1, .ldindI2, .ldindU2, .ldindI4, .ldindU4,
   .ldindI8, .ldindI, .ldindR4, .ldindR8, .ldindRef, .stindRef, .stindI1, .stindI2, .stindI4,
   .stindI8, .stindR4, .stindR8, .add, .sub, .mul, .div, .divUn, .rem, .remUn, .and, .or, .xor,
   .shl, .shr, .shrUn, .neg, .not, .convI1, .convI2, .convI4, .convI8, .convR4, .convR8,
   .convU4, .convU8, .callvirt, .cpobj, .ldobj, .ldstr, .newobj, .castclass, .isinst, .convRUn,
   .unbox, .throw, .ldfld, .ldflda, .stfld, .ldsfld, .ldsflda, .stsfld, .stobj, .convOvfI1Un,
   .convOvfI2Un, .convOvfI4Un, .convOvfI8Un, .convOvfU1Un, .convOvfU2Un, .convOvfU4Un,
   .convOvfU8Un, .convOvfIUn, .convOvfUUn, .box, .newarr, .ldlen, .ldelema, .ldelemI1,
   .ldelemU1, .ldelemI2, .ldelemU2, .ldelemI4, .ldelemU4, .ldelemI8, .ldelemI, .ldelemR4,
   .ldelemR8, .ldelemRef, .stelemI, .stelemI1, .stelemI2, .stelemI4, .stelemI8, .stelemR4,
   .stelemR8, .stelemRef, .ldelem, .stelem, .unboxAny, .convOvfI1, .convOvfU1, .convOvfI2,
   .convOvfU2, .convOvfI4, .convOvfU4, .convOvfI8, .convOvfU8, .refanyval, .ckfinite,
   .mkrefany, .ldtoken, .convU2, .convU1, .convI, .convOvfI, .convOvfU, .addOvf, .addOvfUn,
   .mulOvf, .mulOvfUn, .subOvf, .subOvfUn, .endfinally, .leave, .leaveS, .stindI, .convU,
   .arglist, .ceq, .cgt, .cgtUn, .clt, .cltUn, .ldftn, .ldvirtftn, .ldarg, .ldarga, .starg,
   .ldloc, .ldloca, .stloc, .localloc, .endfilter, .unaligned, .volatile, .tail, .initobj,
   .constrained, .cpblk, .initblk, .no, .rethrow, .sizeof, .refanytype, .readonly, .annDataS,
   .annData]

/-- Position of the opcode in the index space shared by one-byte and two-byte opcodes. -/
def index (op : Opcode) : Nat := op.entry.index

/-- Assembly mnemonic. -/
def mnemonic (op : Opcode) : String := op.entry.mnemonic

/-- Layout of the operand. -/
def layout (op : Opcode) : Layout := op.entry.layout

/-- Values the instruction pops. -/
def pops (op : Opcode) : StackCount := op.entry.pops

/-- Values the instruction pushes. -/
def pushes (op : Opcode) : StackCount := op.entry.pushes

/-- The opcode is written as two bytes. -/
def isEscaped (op : Opcode) : Bool := escapedBase ≤ op.index

/-- The bytes that encode the opcode. -/
def encoding (op : Opcode) : List UInt8 :=
  if op.isEscaped then [escapeByte, UInt8.ofNat (op.index - escapedBase)]
  else [UInt8.ofNat op.index]

/-- Number of bytes that encode the opcode. -/
def length (op : Opcode) : Nat := if op.isEscaped then 2 else 1

/-- Opcode bytes plus the fixed part of the operand. -/
def size (op : Opcode) : Nat := op.length + op.layout.fixedLength

/-- The opcode with a given index, if one is assigned. -/
def ofIndex? (index : Nat) : Option Opcode := all.find? (·.index == index)

/-- The opcode with a given mnemonic. -/
def ofMnemonic? (mnemonic : String) : Option Opcode := all.find? (·.mnemonic == mnemonic)

/-- The opcode modifies the instruction that follows it and does nothing by itself. -/
def isModifier : Opcode → Bool
  | .unaligned | .volatile | .tail | .constrained | .no | .readonly => true
  | _ => false

/-- The opcode only carries a remark. -/
def isRemark : Opcode → Bool
  | .annDataS | .annData => true
  | _ => false

/-- Control never falls through to the next instruction. -/
def isUnconditional : Opcode → Bool
  | .br | .brS | .leave | .leaveS | .ret | .throw | .rethrow | .jmp | .endfinally
  | .endfilter => true
  | _ => false

/-- The opcode's name in running text: the parts of the mnemonic, each with a capital. -/
def describe (op : Opcode) : String :=
  String.join ((op.mnemonic.splitOn ".").map String.capitalize)

end Opcode

/-- What the catalogue says about an index, assigned or not. -/
structure Descriptor where
  mnemonic : String
  /-- Opcode bytes plus the fixed part of the operand. -/
  size : Nat
  pops : StackCount
  pushes : StackCount
  layout : Layout
  deriving DecidableEq

/-- The descriptor shared by all unassigned indices. -/
def Descriptor.unassigned : Descriptor := ⟨"<invalid>", 1, 0, 0, .none⟩

/-- The descriptor of an opcode. -/
def Opcode.descriptor (op : Opcode) : Descriptor :=
  ⟨op.mnemonic, op.size, op.pops, op.pushes, op.layout⟩

/-- The descriptor of an index. -/
def Descriptor.ofIndex (index : Nat) : Descriptor :=
  match Opcode.ofIndex? index with
  | some op => op.descriptor
  | none => .unassigned

/-- The operand class of an index: `invalid` exactly for the unassigned ones. -/
def OperandClass.ofIndex (index : Nat) : OperandClass :=
  match Opcode.ofIndex? index with
  | some op => op.layout.operandClass
  | .none => .invalid

/-! ## Reading an index back -/

theorem Opcode.mem_all (op : Opcode) : op ∈ Opcode.all :=
  List.mem_of_getElem? (i := op.ctorIdx) (by cases op <;> rfl)

theorem Opcode.ofIndex?_index (op : Opcode) : Opcode.ofIndex? op.index = some op := by
  have h : ∀ op ∈ Opcode.all, Opcode.ofIndex? op.index = some op := by decide +kernel
  exact h op op.mem_all

theorem Opcode.length_encoding (op : Opcode) : op.encoding.length = op.length := by
  unfold Opcode.encoding Opcode.length
  split <;> rfl

end ManagedCode
