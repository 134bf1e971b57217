import StackLowering.Machine.Encoding
import StackLowering.Number.Shortest
import StackLowering.Text.Hex

/-!
# Listings

Instructions and decoding errors as text. An index is shown as what it refers to in a pool, or as a
bare number if it refers to nothing suitable there.
-/

namespace StackLowering

/-- A constant as an instruction that pushes it. -/
def Constant.listing : Constant → String
  | i32 value => s!"i32.const {value.toInt}"
  | i64 value => s!"i64.const {value.toInt}"
  | f32 bits => "f32.const " ++ BinaryFormat.binary32.text bits.toNat
  | f64 bits => "f64.const " ++ BinaryFormat.binary64.text bits.toNat
  | symbol name => s!"symbol {name}"

namespace Instruction

/-- How a reference to the constant at a place is shown. -/
def constantText (pool : ConstantPool) (place : UInt16) : String :=
  match pool.get? place.toUInt32 with
  | some constant => constant.listing
  | none => s!"const #{place}"

/-- How a reference to the symbol at a place is shown. -/
def calleeText (pool : ConstantPool) (place : UInt16) : String :=
  match pool.symbol? place.toUInt32 with
  | some name => name
  | none => s!"#{place}"

/-- An instruction as text. -/
def listing (pool : ConstantPool) : IndexedInstruction UInt16 → String
  | const place => constantText pool place
  | pop => "drop"
  | getLocal slot => s!"local.get {slot}"
  | setLocal slot => s!"local.set {slot}"
  | teeLocal slot => s!"local.tee {slot}"
  | add width => width.category.mnemonic ++ ".add"
  | mul width => width.category.mnemonic ++ ".mul"
  | convert source target isSigned =>
    s!"convert {source.mnemonic}->{target.mnemonic} " ++ (if isSigned then "s" else "u")
  | extend8S => "i32.extend8_s"
  | extend16S => "i32.extend16_s"
  | mask8 => "i32.mask8"
  | mask16 => "i32.mask16"
  | nonZero width => width.category.mnemonic ++ ".nez"
  | store category offset align =>
    category.mnemonic ++ s!".store offset={offset} align={align}"
  | call callee argc => s!"call {calleeText pool callee}/{argc}"
  | ret => "return"
  | retVoid => "return.void"
  | trap => "unreachable"

end Instruction

/-- The wording of a decoding error. -/
def DecodeError.text : DecodeError → String
  | invalidOpcode offset byte =>
    "invalid opcode " ++ hexText 2 byte.toNat ++ s!" at offset {offset}"
  | truncated offset => s!"truncated instruction at offset {offset}"
  | invalidCategory offset byte => s!"invalid value category {byte} at offset {offset}"

/-- A piece of code as text, one entry for each instruction. -/
def disassemble (pool : ConstantPool) (code : List UInt8) : Except DecodeError (List String) :=
  (decode code).map (List.map (Instruction.listing pool))

end StackLowering
