/-!
The opcode vocabulary. Instructions with an equivalent in other instruction sets share one class;
conditions are spelled alike for all of them.
-/

namespace FlowAlign.Opcode

def x86Conditions : List (String × String) :=
  [("e", "eq"), ("z", "eq"), ("ne", "ne"), ("nz", "ne"), ("l", "lt"), ("nge", "lt"), ("ge", "ge"),
   ("nl", "ge"), ("le", "le"), ("ng", "le"), ("g", "gt"), ("nle", "gt"), ("b", "ult"),
   ("c", "ult"), ("nae", "ult"), ("ae", "uge"), ("nb", "uge"), ("nc", "uge"), ("be", "ule"),
   ("na", "ule"), ("a", "ugt"), ("nbe", "ugt"), ("s", "mi"), ("ns", "pl"), ("o", "vs"),
   ("no", "vc"), ("p", "p"), ("pe", "p"), ("np", "np"), ("po", "np")]

/-- Condition by the suffix of an ARM mnemonic, in the order in which suffixes are tried. -/
def armConditions : List (String × String) :=
  [("eq", "eq"), ("ne", "ne"), ("lt", "lt"), ("ge", "ge"), ("le", "le"), ("gt", "gt"),
   ("lo", "ult"), ("cc", "ult"), ("hs", "uge"), ("cs", "uge"), ("ls", "ule"), ("hi", "ugt"),
   ("mi", "mi"), ("pl", "pl"), ("vs", "vs"), ("vc", "vc")]

def avrBranches : List (String × String) :=
  [("breq", "eq"), ("brne", "ne"), ("brlt", "lt"), ("brge", "ge"), ("brlo", "ult"),
   ("brcs", "ult"), ("brsh", "uge"), ("brcc", "uge"), ("brmi", "mi"), ("brpl", "pl"),
   ("brvs", "vs"), ("brvc", "vc")]

def llvmPredicates : List (String × String) :=
  [("eq", "eq"), ("ne", "ne"), ("sgt", "gt"), ("sge", "ge"), ("slt", "lt"), ("sle", "le"),
   ("ugt", "ugt"), ("uge", "uge"), ("ult", "ult"), ("ule", "ule")]

def x86Classes : List (String × String) :=
  [("add", "add"), ("inc", "add"), ("sub", "sub"), ("dec", "sub"), ("imul", "mul"),
   ("mul", "mul"), ("idiv", "div"), ("div", "udiv"), ("and", "and"), ("or", "or"), ("xor", "xor"),
   ("not", "not"), ("neg", "neg"), ("shl", "shl"), ("sal", "shl"), ("shr", "lshr"),
   ("sar", "ashr"), ("rol", "rotate"), ("ror", "rotate"), ("mov", "move"), ("movabs", "move"),
   ("movzx", "zext"), ("movsx", "sext"), ("movsxd", "sext"), ("cdq", "sext"), ("cqo", "sext"),
   ("cdqe", "sext"), ("cwde", "sext"), ("cwd", "sext"), ("lea", "address"), ("cmp", "compare"),
   ("test", "test"), ("push", "push"), ("pop", "pop"), ("nop", "nop"), ("endbr64", "nop"),
   ("endbr32", "nop"), ("int3", "trap"), ("ud2", "trap"), ("hlt", "trap"), ("addss", "fadd"),
   ("addsd", "fadd"), ("subss", "fsub"), ("subsd", "fsub"), ("mulss", "fmul"), ("mulsd", "fmul"),
   ("divss", "fdiv"), ("divsd", "fdiv"), ("movss", "move"), ("movsd", "move"), ("movaps", "move"),
   ("movapd", "move"), ("movups", "move"), ("movupd", "move"), ("movd", "move"), ("movq", "move"),
   ("cvtsi2sd", "convert"), ("cvtsi2ss", "convert"), ("cvttsd2si", "convert"),
   ("cvttss2si", "convert"), ("cvtss2sd", "convert"), ("cvtsd2ss", "convert"),
   ("ucomiss", "fcompare"), ("ucomisd", "fcompare"), ("comiss", "fcompare"),
   ("comisd", "fcompare"), ("pxor", "xor"), ("xorps", "xor"), ("xorpd", "xor")]

def armClasses : List (String × String) :=
  [("add", "add"), ("adds", "add"), ("sub", "sub"), ("subs", "sub"), ("rsb", "sub"),
   ("rsbs", "sub"), ("mul", "mul"), ("muls", "mul"), ("sdiv", "div"), ("udiv", "udiv"),
   ("and", "and"), ("ands", "and"), ("orr", "or"), ("orrs", "or"), ("eor", "xor"),
   ("eors", "xor"), ("mvn", "not"), ("mvns", "not"), ("neg", "neg"), ("negs", "neg"),
   ("lsl", "shl"), ("lsls", "shl"), ("lsr", "lshr"), ("lsrs", "lshr"), ("asr", "ashr"),
   ("asrs", "ashr"), ("ror", "rotate"), ("rors", "rotate"), ("mov", "move"), ("movs", "move"),
   ("movw", "move"), ("movz", "move"), ("adr", "address"), ("adrp", "address"),
   ("cmp", "compare"), ("cmn", "compare"), ("tst", "test"), ("teq", "test"), ("csel", "select"),
   ("sxtw", "sext"), ("sxth", "sext"), ("sxtb", "sext"), ("uxtw", "zext"), ("uxth", "zext"),
   ("uxtb", "zext"), ("push", "push"), ("pop", "pop"), ("nop", "nop"), ("fadd", "fadd"),
   ("fsub", "fsub"), ("fmul", "fmul"), ("fdiv", "fdiv"), ("vadd", "fadd"), ("vsub", "fsub"),
   ("vmul", "fmul"), ("vdiv", "fdiv"), ("fcmp", "fcompare"), ("vcmp", "fcompare"),
   ("fcvtzs", "convert"), ("fcvtzu", "convert"), ("scvtf", "convert"), ("ucvtf", "convert"),
   ("fcvt", "convert"), ("vcvt", "convert"), ("fmov", "move"), ("vmov", "move"), ("brk", "trap"),
   ("udf", "trap"), ("bkpt", "trap"), ("hlt", "trap")]

def armLoadStarts : List String :=
  ["ldr", "ldur", "ldp", "ldm", "ldx", "lda", "vldr", "vld"]

def armStoreStarts : List String :=
  ["str", "stur", "stp", "stm", "stx", "stl", "vstr", "vst"]

def avrClasses : List (String × String) :=
  [("add", "add"), ("adiw", "add"), ("inc", "add"), ("sub", "sub"), ("subi", "sub"),
   ("sbiw", "sub"), ("dec", "sub"), ("and", "and"), ("andi", "and"), ("or", "or"), ("ori", "or"),
   ("eor", "xor"), ("com", "not"), ("neg", "neg"), ("lsl", "shl"), ("lsr", "lshr"),
   ("asr", "ashr"), ("rol", "rotate"), ("ror", "rotate"), ("mov", "move"), ("movw", "move"),
   ("ldi", "move"), ("ld", "load"), ("ldd", "load"), ("lds", "load"), ("lpm", "load"),
   ("elpm", "load"), ("in", "load"), ("st", "store"), ("std", "store"), ("sts", "store"),
   ("out", "store"), ("push", "push"), ("pop", "pop"), ("cp", "compare"), ("cpc", "compare"),
   ("cpi", "compare"), ("tst", "test"), ("mul", "mul"), ("muls", "mul"), ("mulsu", "mul"),
   ("nop", "nop"), ("break", "trap")]

def llvmClasses : List (String × String) :=
  [("add", "add"), ("sub", "sub"), ("mul", "mul"), ("sdiv", "div"), ("udiv", "udiv"),
   ("srem", "rem"), ("urem", "urem"), ("and", "and"), ("or", "or"), ("xor", "xor"),
   ("shl", "shl"), ("lshr", "lshr"), ("ashr", "ashr"), ("fneg", "neg"), ("fadd", "fadd"),
   ("fsub", "fsub"), ("fmul", "fmul"), ("fdiv", "fdiv"), ("load", "load"), ("store", "store"),
   ("getelementptr", "address"), ("select", "select"), ("zext", "zext"), ("sext", "sext"),
   ("trunc", "truncate"), ("fptrunc", "convert"), ("fpext", "convert"), ("fptosi", "convert"),
   ("fptoui", "convert"), ("sitofp", "convert"), ("uitofp", "convert"), ("unreachable", "trap")]

end FlowAlign.Opcode
