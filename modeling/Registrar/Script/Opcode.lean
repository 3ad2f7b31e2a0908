/-!
# Opcodes

The instruction set of the stack machine whose scripts are read. Nothing here runs a script: what
matters of an opcode is its byte, its names, whether it is a push, and how many operand bytes follow
it. Two families take an index instead of one constructor per byte: `pushBytes` for the 75 opcodes
whose byte is the length of their operand, and `pushInt` for the sixteen that push 1 to 16.

`ofByte?` and `byte` are inverse to each other, so an opcode is the same thing as an assigned byte.
-/

namespace Registrar.Script

/-- How the operand that follows an opcode is laid out. -/
inductive OperandLayout where
  /-- Nothing follows. -/
  | absent
  /-- Exactly this many bytes follow. -/
  | fixed (size : Nat)
  /-- A length of this many bytes follows, least significant byte first, and then the data. -/
  | counted (width : Nat)
  deriving DecidableEq, Repr

/-- An instruction of the stack machine. -/
inductive Opcode where
  /-- Pushes the empty byte string, which is also zero. -/
  | push0
  /-- Pushes the `n + 1` bytes that follow. -/
  | pushBytes (n : Fin 75)
  /-- Pushes bytes whose length follows in one byte. -/
  | pushData1
  /-- Pushes bytes whose length follows in two bytes. -/
  | pushData2
  /-- Pushes bytes whose length follows in four bytes. -/
  | pushData4
  /-- Pushes minus one. -/
  | pushM1
  /-- Pushes the number `n + 1`. -/
  | pushInt (n : Fin 16)
  -- Flow control
  | nop | jmp | jmpIf | jmpIfNot | call | ret | appCall | sysCall | tailCall
  -- The stack
  | dupFromAltStack | toAltStack | fromAltStack | xDrop | xSwap | xTuck | depth | drop | dup | nip
  | dupOver | pick | roll | rot | swap | tuck
  -- Splicing
  | cat | subStr | left | right | size
  -- Bitwise logic
  | invert | and | or | xor | equal
  -- Arithmetic
  | inc | dec | sign | negate | abs | not | nz | add | sub | mul | div | mod | shl | shr | boolAnd
  | boolOr | numEqual | numNotEqual | lt | gt | lte | gte | min | max | within
  -- Digests and signatures
  | sha1 | sha256 | hash160 | hash256 | checkSig | verify | checkMultiSig
  -- Arrays and maps
  | arraySize | pack | unpack | pickItem | setItem | newArray | newStruct | newMap | append
  | reverse | remove | hasKey | keys | values
  -- Calls with an isolated stack
  | callI | callE | callEd | callEt | callEdt
  -- Exceptions
  | throw | throwIfNot
  deriving DecidableEq, Repr

namespace Opcode

/-! ## Bytes -/

/-- The byte that stands for the opcode in a script. -/
def byte : Opcode → UInt8
  | pushBytes n => UInt8.ofNat (n + 1)
  | pushInt n => UInt8.ofNat (0x51 + n)
  | push0 => 0x00
  | pushData1 => 0x4C
  | pushData2 => 0x4D
  | pushData4 => 0x4E
  | pushM1 => 0x4F
  | nop => 0x61
  | jmp => 0x62
  | jmpIf => 0x63
  | jmpIfNot => 0x64
  | call => 0x65
  | ret => 0x66
  | appCall => 0x67
  | sysCall => 0x68
  | tailCall => 0x69
  | dupFromAltStack => 0x6A
  | toAltStack => 0x6B
  | fromAltStack => 0x6C
  | xDrop => 0x6D
  | xSwap => 0x72
  | xTuck => 0x73
  | depth => 0x74
  | drop => 0x75
  | dup => 0x76
  | nip => 0x77
  | dupOver => 0x78
  | pick => 0x79
  | roll => 0x7A
  | rot => 0x7B
  | swap => 0x7C
  | tuck => 0x7D
  | cat => 0x7E
  | subStr => 0x7F
  | left => 0x80
  | right => 0x81
  | size => 0x82
  | invert => 0x83
  | and => 0x84
  | or => 0x85
  | xor => 0x86
  | equal => 0x87
  | inc => 0x8B
  | dec => 0x8C
  | sign => 0x8D
  | negate => 0x8F
  | abs => 0x90
  | not => 0x91
  | nz => 0x92
  | add => 0x93
  | sub => 0x94
  | mul => 0x95
  | div => 0x96
  | mod => 0x97
  | shl => 0x98
  | shr => 0x99
  | boolAnd => 0x9A
  | boolOr => 0x9B
  | numEqual => 0x9C
  | numNotEqual => 0x9E
  | lt => 0x9F
  | gt => 0xA0
  | lte => 0xA1
  | gte => 0xA2
  | min => 0xA3
  | max => 0xA4
  | within => 0xA5
  | sha1 => 0xA7
  | sha256 => 0xA8
  | hash160 => 0xA9
  | hash256 => 0xAA
  | checkSig => 0xAC
  | verify => 0xAD
  | checkMultiSig => 0xAE
  | arraySize => 0xC0
  | pack => 0xC1
  | unpack => 0xC2
  | pickItem => 0xC3
  | setItem => 0xC4
  | newArray => 0xC5
  | newStruct => 0xC6
  | newMap => 0xC7
  | append => 0xC8
  | reverse => 0xC9
  | remove => 0xCA
  | hasKey => 0xCB
  | keys => 0xCC
  | values => 0xCD
  | callI => 0xE0
  | callE => 0xE1
  | callEd => 0xE2
  | callEt => 0xE3
  | callEdt => 0xE4
  | throw => 0xF0
  | throwIfNot => 0xF1

/-- The opcode that a byte outside the two families stands for. -/
def single? : Nat → Option Opcode
  | 0x00 => some push0
  | 0x4C => some pushData1
  | 0x4D => some pushData2
  | 0x4E => some pushData4
  | 0x4F => some pushM1
  | 0x61 => some nop
  | 0x62 => some jmp
  | 0x63 => some jmpIf
  | 0x64 => some jmpIfNot
  | 0x65 => some call
  | 0x66 => some ret
  | 0x67 => some appCall
  | 0x68 => some sysCall
  | 0x69 => some tailCall
  | 0x6A => some dupFromAltStack
  | 0x6B => some toAltStack
  | 0x6C => some fromAltStack
  | 0x6D => some xDrop
  | 0x72 => some xSwap
  | 0x73 => some xTuck
  | 0x74 => some depth
  | 0x75 => some drop
  | 0x76 => some dup
  | 0x77 => some nip
  | 0x78 => some dupOver
  | 0x79 => some pick
  | 0x7A => some roll
  | 0x7B => some rot
  | 0x7C => some swap
  | 0x7D => some tuck
  | 0x7E => some cat
  | 0x7F => some subStr
  | 0x80 => some left
  | 0x81 => some right
  | 0x82 => some size
  | 0x83 => some invert
  | 0x84 => some and
  | 0x85 => some or
  | 0x86 => some xor
  | 0x87 => some equal
  | 0x8B => some inc
  | 0x8C => some dec
  | 0x8D => some sign
  | 0x8F => some negate
  | 0x90 => some abs
  | 0x91 => some not
  | 0x92 => some nz
  | 0x93 => some add
  | 0x94 => some sub
  | 0x95 => some mul
  | 0x96 => some div
  | 0x97 => some mod
  | 0x98 => some shl
  | 0x99 => some shr
  | 0x9A => some boolAnd
  | 0x9B => some boolOr
  | 0x9C => some numEqual
  | 0x9E => some numNotEqual
  | 0x9F => some lt
  | 0xA0 => some gt
  | 0xA1 => some lte
  | 0xA2 => some gte
  | 0xA3 => some min
  | 0xA4 => some max
  | 0xA5 => some within
  | 0xA7 => some sha1
  | 0xA8 => some sha256
  | 0xA9 => some hash160
  | 0xAA => some hash256
  | 0xAC => some checkSig
  | 0xAD => some verify
  | 0xAE => some checkMultiSig
  | 0xC0 => some arraySize
  | 0xC1 => some pack
  | 0xC2 => some unpack
  | 0xC3 => some pickItem
  | 0xC4 => some setItem
  | 0xC5 => some newArray
  | 0xC6 => some newStruct
  | 0xC7 => some newMap
  | 0xC8 => some append
  | 0xC9 => some reverse
  | 0xCA => some remove
  | 0xCB => some hasKey
  | 0xCC => some keys
  | 0xCD => some values
  | 0xE0 => some callI
  | 0xE1 => some callE
  | 0xE2 => some callEd
  | 0xE3 => some callEt
  | 0xE4 => some callEdt
  | 0xF0 => some throw
  | 0xF1 => some throwIfNot
  | _ => none

/-- The opcode that a byte stands for, if it is assigned. -/
def ofByte? (b : UInt8) : Option Opcode :=
  let n := b.toNat
  if h : 1 ≤ n ∧ n ≤ 75 then some (pushBytes ⟨n - 1, by omega⟩)
  else if h : 0x51 ≤ n ∧ n ≤ 0x60 then some (pushInt ⟨n - 0x51, by omega⟩)
  else single? n

/-- Every opcode, in the order of the bytes. -/
def all : List Opcode :=
  (List.range 256).filterMap fun n => ofByte? (UInt8.ofNat n)

/-! ## Names -/

/-- The name in a disassembly listing. -/
def mnemonic : Opcode → String
  | pushBytes n => "PUSHBYTES" ++ toString (n.val + 1)
  | pushInt n => "PUSH" ++ toString (n.val + 1)
  | push0 => "PUSH0"
  | pushData1 => "PUSHDATA1"
  | pushData2 => "PUSHDATA2"
  | pushData4 => "PUSHDATA4"
  | pushM1 => "PUSHM1"
  | nop => "NOP"
  | jmp => "JMP"
  | jmpIf => "JMPIF"
  | jmpIfNot => "JMPIFNOT"
  | call => "CALL"
  | ret => "RET"
  | appCall => "APPCALL"
  | sysCall => "SYSCALL"
  | tailCall => "TAILCALL"
  | dupFromAltStack => "DUPFROMALTSTACK"
  | toAltStack => "TOALTSTACK"
  | fromAltStack => "FROMALTSTACK"
  | xDrop => "XDROP"
  | xSwap => "XSWAP"
  | xTuck => "XTUCK"
  | depth => "DEPTH"
  | drop => "DROP"
  | dup => "DUP"
  | nip => "NIP"
  | dupOver => "OVER"
  | pick => "PICK"
  | roll => "ROLL"
  | rot => "ROT"
  | swap => "SWAP"
  | tuck => "TUCK"
  | cat => "CAT"
  | subStr => "SUBSTR"
  | left => "LEFT"
  | right => "RIGHT"
  | size => "SIZE"
  | invert => "INVERT"
  | and => "AND"
  | or => "OR"
  | xor => "XOR"
  | equal => "EQUAL"
  | inc => "INC"
  | dec => "DEC"
  | sign => "SIGN"
  | negate => "NEGATE"
  | abs => "ABS"
  | not => "NOT"
  | nz => "NZ"
  | add => "ADD"
  | sub => "SUB"
  | mul => "MUL"
  | div => "DIV"
  | mod => "MOD"
  | shl => "SHL"
  | shr => "SHR"
  | boolAnd => "BOOLAND"
  | boolOr => "BOOLOR"
  | numEqual => "NUMEQUAL"
  | numNotEqual => "NUMNOTEQUAL"
  | lt => "LT"
  | gt => "GT"
  | lte => "LTE"
  | gte => "GTE"
  | min => "MIN"
  | max => "MAX"
  | within => "WITHIN"
  | sha1 => "SHA1"
  | sha256 => "SHA256"
  | hash160 => "HASH160"
  | hash256 => "HASH256"
  | checkSig => "CHECKSIG"
  | verify => "VERIFY"
  | checkMultiSig => "CHECKMULTISIG"
  | arraySize => "ARRAYSIZE"
  | pack => "PACK"
  | unpack => "UNPACK"
  | pickItem => "PICKITEM"
  | setItem => "SETITEM"
  | newArray => "NEWARRAY"
  | newStruct => "NEWSTRUCT"
  | newMap => "NEWMAP"
  | append => "APPEND"
  | reverse => "REVERSE"
  | remove => "REMOVE"
  | hasKey => "HASKEY"
  | keys => "KEYS"
  | values => "VALUES"
  | callI => "CALL_I"
  | callE => "CALL_E"
  | callEd => "CALL_ED"
  | callEt => "CALL_ET"
  | callEdt => "CALL_EDT"
  | throw => "THROW"
  | throwIfNot => "THROWIFNOT"

/-- The name in exchanged data. -/
def identifier : Opcode → String
  | pushBytes n => "PushBytes" ++ toString (n.val + 1)
  | pushInt n => "Push" ++ toString (n.val + 1)
  | push0 => "Push0"
  | pushData1 => "PushData1"
  | pushData2 => "PushData2"
  | pushData4 => "PushData4"
  | pushM1 => "PushM1"
  | nop => "Nop"
  | jmp => "Jmp"
  | jmpIf => "JmpIf"
  | jmpIfNot => "JmpIfNot"
  | call => "Call"
  | ret => "Ret"
  | appCall => "AppCall"
  | sysCall => "SysCall"
  | tailCall => "TailCall"
  | dupFromAltStack => "DupFromAltStack"
  | toAltStack => "ToAltStack"
  | fromAltStack => "FromAltStack"
  | xDrop => "XDrop"
  | xSwap => "XSwap"
  | xTuck => "XTuck"
  | depth => "Depth"
  | drop => "Drop"
  | dup => "Dup"
  | nip => "Nip"
  | dupOver => "Over"
  | pick => "Pick"
  | roll => "Roll"
  | rot => "Rot"
  | swap => "Swap"
  | tuck => "Tuck"
  | cat => "Cat"
  | subStr => "SubStr"
  | left => "Left"
  | right => "Right"
  | size => "Size"
  | invert => "Invert"
  | and => "And"
  | or => "Or"
  | xor => "Xor"
  | equal => "Equal"
  | inc => "Inc"
  | dec => "Dec"
  | sign => "Sign"
  | negate => "Negate"
  | abs => "Abs"
  | not => "Not"
  | nz => "Nz"
  | add => "Add"
  | sub => "Sub"
  | mul => "Mul"
  | div => "Div"
  | mod => "Mod"
  | shl => "Shl"
  | shr => "Shr"
  | boolAnd => "BoolAnd"
  | boolOr => "BoolOr"
  | numEqual => "NumEqual"
  | numNotEqual => "NumNotEqual"
  | lt => "Lt"
  | gt => "Gt"
  | lte => "Lte"
  | gte => "Gte"
  | min => "Min"
  | max => "Max"
  | within => "Within"
  | sha1 => "Sha1"
  | sha256 => "Sha256"
  | hash160 => "Hash160"
  | hash256 => "Hash256"
  | checkSig => "CheckSig"
  | verify => "Verify"
  | checkMultiSig => "CheckMultiSig"
  | arraySize => "ArraySize"
  | pack => "Pack"
  | unpack => "Unpack"
  | pickItem => "PickItem"
  | setItem => "SetItem"
  | newArray => "NewArray"
  | newStruct => "NewStruct"
  | newMap => "NewMap"
  | append => "Append"
  | reverse => "Reverse"
  | remove => "Remove"
  | hasKey => "HasKey"
  | keys => "Keys"
  | values => "Values"
  | callI => "CallI"
  | callE => "CallE"
  | callEd => "CallEd"
  | callEt => "CallEt"
  | callEdt => "CallEdt"
  | throw => "Throw"
  | throwIfNot => "ThrowIfNot"

/-- The opcode that has this name in exchanged data. -/
def ofIdentifier? (name : String) : Option Opcode :=
  all.find? fun op => op.identifier = name

/-! ## Operands and pushes -/

/-- How the operand of the opcode is laid out. The name of a service is limited to 252 bytes, so its
length takes one byte. -/
def layout : Opcode → OperandLayout
  | pushBytes n => .fixed (n + 1)
  | pushData1 | sysCall => .counted 1
  | pushData2 => .counted 2
  | pushData4 => .counted 4
  | jmp | jmpIf | jmpIfNot | call | callEd | callEdt => .fixed 2
  | callI => .fixed 4
  | appCall | tailCall => .fixed 20
  | callE | callEt => .fixed 22
  | _ => .absent

/-- Whether the opcode pushes the bytes that follow it, with no length before them. -/
def isPushBytes : Opcode → Bool
  | pushBytes _ => true
  | _ => false

/-- Whether all that the opcode does is to push a constant. -/
def isPush : Opcode → Bool
  | push0 | pushBytes _ | pushData1 | pushData2 | pushData4 | pushM1 | pushInt _ => true
  | _ => false

/-- The number from 0 to 16 that the opcode pushes by itself. -/
def smallInt? : Opcode → Option Nat
  | push0 => some 0
  | pushInt n => some (n + 1)
  | _ => none

/-- The opcode that pushes `n` by itself, for `n` from 0 to 16. -/
def ofSmallInt? (n : Nat) : Option Opcode :=
  if n = 0 then some push0
  else if h : n ≤ 16 then some (pushInt ⟨n - 1, by omega⟩)
  else none

end Opcode

end Registrar.Script
