import Mathlib.Algebra.Group.Int.Defs
import Mathlib.Algebra.Group.Nat.Defs
import Mathlib.Data.List.Basic
import Wattx.SignedWord
/-!
# ContractAbi — `FunctionABI::abiIn` and `abiOut`, the contract ABI codec of `util/contractabi.cpp`

`abiIn` encodes a call's arguments, given as strings, into the hex string of its call data: the selector, then a
32-byte word per static argument, a head word per dynamic one whose offset `processDynamicParams` fills in once the
static part is written, and the dynamic parts after it.  `abiOut` reads the words back, in the four branches the
encoder has: static or dynamic, scalar or list.

Every `std::string` is its bytes here, the hex text as well as the binary strings `asString` makes.  A parameter is
the name of its type, which `ParameterType::determine` parses into `int` sizes with glibc's `atoi`, that is
`(int) strtol`: the digits saturate at `LONG_MAX` and the conversion keeps their low 32 bits, so `uint4294967552`
names a `uint256`.  `u256`'s constructor from a string is `boost`'s, outside the repository: the encoder takes it as
a parameter, `U256FromString`, with what boost documents of it (decimal, `0x` hex and leading-`0` octal digits after
an optional minus sign, and a throw at any other byte).

A static `bytes<N>` argument is written as the value's bytes padded with zeros to 32 (`toString32`), and read back
through `toString(string32)`, which stops at the first zero byte: an argument that holds a zero byte does not come
back (`abi_bytes_zero_truncated`).
-/
namespace Wattx
namespace ContractAbi

/-- `HEX_INSTRUCTION_SIZE`: the hex digits of one 32-byte word. -/
def HEX_INSTRUCTION_SIZE : Nat := 64

/-- The bytes of an ASCII text. -/
def ascii (s : String) : List UInt8 := s.toList.map fun c => c.toNat.toUInt8

/-! ### The helpers of `libdevcore` -/

/-- `fromHexChar`: the value of a hex digit, `none` for the `-1` of any other byte. -/
def fromHexChar (c : UInt8) : Option Nat :=
  if 48 ≤ c.toNat ∧ c.toNat ≤ 57 then some (c.toNat - 48)
  else if 97 ≤ c.toNat ∧ c.toNat ≤ 102 then some (c.toNat - 97 + 10)
  else if 65 ≤ c.toNat ∧ c.toNat ≤ 70 then some (c.toNat - 65 + 10)
  else none

/-- The loop of `fromHex` over pairs of digits; a digit past the end reads the terminating NUL, not a digit. -/
def fromHexPairs : List UInt8 → Option (List UInt8)
  | [] => some []
  | [_] => none
  | h :: l :: rest =>
    match fromHexChar h, fromHexChar l with
    | some h, some l => (fromHexPairs rest).map ((h * 16 + l).toUInt8 :: ·)
    | _, _ => none

/-- `fromHex` with `WhenError::DontThrow`: an optional `0x`, a lone first digit when the length is odd, then pairs;
no bytes at all at a character that is not a digit. -/
def fromHex (s : List UInt8) : List UInt8 :=
  let body := if s.take 2 = ascii "0x" then s.drop 2 else s
  let bytes :=
    if s.length % 2 = 1 then
      match body with
      | c :: rest =>
        match fromHexChar c with
        | some h => (fromHexPairs rest).map (h.toUInt8 :: ·)
        | none => none
      | [] => none
    else fromHexPairs body
  bytes.getD []

/-- The lower-case hex digit `toHex` writes for a nibble. -/
def hexDigit (n : Nat) : UInt8 := if n < 10 then (48 + n).toUInt8 else (87 + n).toUInt8

def toHex (bs : List UInt8) : List UInt8 :=
  bs.flatMap fun b => [hexDigit (b.toNat / 16), hexDigit (b.toNat % 16)]

/-- `toBigEndian` into `width` bytes: the low `width` bytes of `n`, the most significant first. -/
def toBigEndian (n : Nat) : Nat → List UInt8
  | 0 => []
  | width + 1 => toBigEndian (n / 256) width ++ [(n % 256).toUInt8]

/-- `fromBigEndian` into a type of `bits` bits, whose shifts drop what overflows. -/
def fromBigEndian (bits : Nat) (bs : List UInt8) : Nat :=
  bs.foldl (fun acc b => (acc * 256 + b.toNat) % 2 ^ bits) 0

/-- `vector_ref::cropped(begin, count)`: the `count` bytes from `begin`, or no bytes when they are not all there. -/
def cropped (bs : List UInt8) (begin count : Nat) : List UInt8 :=
  if begin + count ≤ bs.length then (bs.drop begin).take count else []

/-- The `u256` of the word at `begin`: an `h256` built from a reference of another size is zero. -/
def wordAt (bs : List UInt8) (begin : Nat) : Nat := fromBigEndian 256 (cropped bs begin 32)

/-- `toString32`: the first 32 bytes of `s`, padded with zeros. -/
def toString32 (s : List UInt8) : List UInt8 := s.take 32 ++ List.replicate (32 - s.length) 0

/-- `toString(string32)`: the bytes up to the first zero. -/
def toStringOfString32 (s : List UInt8) : List UInt8 := s.takeWhile (· ≠ 0)

def isDigit (c : UInt8) : Bool := 48 ≤ c.toNat && c.toNat ≤ 57

/-- The value of a string of digits in base `radix`, each read by `digit`: `none` at a byte that is not a digit, and
no digits at all read as zero. -/
def digitsValue (radix : Nat) (digit : UInt8 → Option Nat) (s : List UInt8) : Option Nat :=
  s.foldlM (fun acc c => (digit c).map (acc * radix + ·)) 0

def decimalDigit (c : UInt8) : Option Nat := if isDigit c then some (c.toNat - 48) else none

def octalDigit (c : UInt8) : Option Nat := if 48 ≤ c.toNat ∧ c.toNat ≤ 55 then some (c.toNat - 48) else none

def decimalValue (s : List UInt8) : Option Nat := digitsValue 10 decimalDigit s

/-- `u256`'s constructor from a string, `boost::multiprecision`'s: a function with what boost documents of it.  After
an optional `-`, the text is decimal digits, or `0x` (or `0X`) and hex digits, or a leading `0` and octal digits, read
modulo `2 ^ 256`; the minus sign negates modulo `2 ^ 256`, as an unchecked unsigned type does; any other byte throws,
`none`. -/
structure U256FromString where
  ofString : List UInt8 → Option Nat
  decimal : ∀ s, s.head? ≠ some 48 → s.head? ≠ some 45 → ofString s = (decimalValue s).map (· % 2 ^ 256)
  octal : ∀ s, s.head? ≠ some 120 → s.head? ≠ some 88 →
    ofString (48 :: s) = (digitsValue 8 octalDigit s).map (· % 2 ^ 256)
  hex : ∀ x s, x = 120 ∨ x = 88 → ofString (48 :: x :: s) = (digitsValue 16 fromHexChar s).map (· % 2 ^ 256)
  negate : ∀ s, s.head? ≠ some 45 → ofString (45 :: s) = (ofString s).map fun n => (2 ^ 256 - n) % 2 ^ 256

/-- The value of an unsigned text by its prefix: hex after `0x` or `0X`, octal after another leading `0`, and
decimal otherwise. -/
def prefixedValue (s : List UInt8) : Option Nat :=
  match s with
  | 48 :: x :: rest =>
    if x = 120 ∨ x = 88 then digitsValue 16 fromHexChar rest else digitsValue 8 octalDigit (x :: rest)
  | [48] => some 0
  | _ => decimalValue s

/-- A constructor with exactly the documented behaviour, which throws at a second minus sign as at any other byte
that is not a digit. -/
def U256FromString.standard : U256FromString where
  ofString s :=
    match s with
    | 45 :: rest =>
      if rest.head? = some 45 then none else (prefixedValue rest).map fun n => (2 ^ 256 - n % 2 ^ 256) % 2 ^ 256
    | _ => (prefixedValue s).map (· % 2 ^ 256)
  decimal s h48 h45 := by
    match s, h48, h45 with
    | [], _, _ => rfl
    | c :: rest, h48, h45 =>
      simp only [List.head?_cons, ne_eq, Option.some.injEq] at h48 h45
      simp [prefixedValue, h48, h45]
  octal s hx hX := by
    match s, hx, hX with
    | [], _, _ => rfl
    | c :: rest, hx, hX =>
      simp only [List.head?_cons, ne_eq, Option.some.injEq] at hx hX
      simp [prefixedValue, hx, hX]
  hex x s hx := by
    simp [prefixedValue, hx]
  negate s h45 := by
    match s, h45 with
    | [], _ => rfl
    | c :: rest, h45 =>
      simp only [List.head?_cons, ne_eq, Option.some.injEq] at h45
      simp [h45, Option.map_map, Function.comp_def]

/-- `str()` of a non-negative number: its decimal digits. -/
def decimalString (n : Nat) : List UInt8 := (Nat.toDigits 10 n).map fun c => c.toNat.toUInt8

/-- `u2s`: a `u256` read as a two's complement `s256`. -/
def u2s (n : Nat) : Int := if n < 2 ^ 255 then n else (n : Int) - 2 ^ 256

/-- `str()` of an `s256`. -/
def signedString (z : Int) : List UInt8 := if z < 0 then 45 :: decimalString z.natAbs else decimalString z.toNat

/-- `LONG_MAX` and `LONG_MIN`, of a 64-bit `long`. -/
def LONG_MAX : Int := 2 ^ 63 - 1

def LONG_MIN : Int := -2 ^ 63

/-- `isspace` in the "C" locale: the blank, and `\t` to `\r`. -/
def isSpace (c : UInt8) : Bool := c.toNat == 32 || (9 ≤ c.toNat && c.toNat ≤ 13)

/-- The decimal digits at the head of `s`, read as a number. -/
def leadingDecimal (s : List UInt8) : Nat := (decimalValue (s.takeWhile isDigit)).getD 0

/-- glibc's `strtol(s, NULL, 10)`: white space, an optional sign, then the decimal digits at the head of the rest;
a value past `LONG_MAX` or `LONG_MIN` saturates there, and no digits read as zero. -/
def strtol (s : List UInt8) : Int :=
  match s.dropWhile isSpace with
  | [] => 0
  | c :: rest =>
    if c = 45 then max (-(leadingDecimal rest : Int)) LONG_MIN
    else if c = 43 then min (leadingDecimal rest : Int) LONG_MAX
    else min (leadingDecimal (c :: rest) : Int) LONG_MAX

/-- glibc's `atoi`: `(int) strtol(s, NULL, 10)`, the conversion to `int` keeping the low 32 bits. -/
def atoi (s : List UInt8) : Int := SignedWord.wrap 32 (strtol s)

/-- An `int` converted to `size_t`: its value modulo `2 ^ 64`. -/
def toSizeT (x : Int) : Nat := (x % 2 ^ 64).toNat

theorem atoi_inRange (s : List UInt8) : SignedWord.InRange 32 (atoi s) := SignedWord.inRange_wrap (by decide) _

theorem toSizeT_natCast {n : Nat} (hn : n < 2 ^ 64) : toSizeT n = n := by
  rw [toSizeT]
  omega

/-- The word of `ABISerialiser<u256>`, in hex. -/
def wordHex (n : Nat) : List UInt8 := toHex (toBigEndian n 32)

/-- `ABISerialiser<std::string>`: the offset `32`, the length, and the bytes padded to whole words. -/
def serialiseString (s : List UInt8) : List UInt8 :=
  toBigEndian 32 32 ++ toBigEndian s.length 32 ++ s ++ List.replicate ((s.length + 31) / 32 * 32 - s.length) 0

/-! ### Types and errors -/

/-- `ParameterType::Type`. -/
inductive AbiType where
  | abi_none
  | abi_bytes
  | abi_string
  | abi_uint
  | abi_int
  | abi_address
  | abi_bool
  | abi_fixed
  | abi_ufixed
  | abi_function
  deriving DecidableEq, Repr

/-- `ParameterType`: what `determine` reads from a type's name, the sizes as the `int`s `m_whole`, `m_decimal` and
`m_length`. -/
structure ParameterType where
  type : AbiType
  whole : Int
  decimal : Int
  length : Int
  isList : Bool
  valid : Bool
  deriving DecidableEq, Repr

/-- `startsWithString`: whether `str` has `s` at `pos`, and `pos` past it when it has. -/
def startsWithString (str s : List UInt8) (pos : Nat) : Bool × Nat :=
  if pos ≥ str.length then (false, pos)
  else if (str.drop pos).take s.length = s then (true, pos + s.length) else (false, pos)

/-- `startsWithNumber`: the digits of `str` from `pos` on, and `pos` past them. -/
def startsWithNumber (str : List UInt8) (pos : Nat) : List UInt8 × Nat :=
  if pos ≥ str.length then ([], pos)
  else
    let digits := (str.drop pos).takeWhile isDigit
    (digits, pos + digits.length)

/-- The names `determine` tries, in its order. -/
def basicTypes : List (String × AbiType) :=
  [("uint", .abi_uint), ("int", .abi_int), ("address", .abi_address), ("bool", .abi_bool),
    ("fixed", .abi_fixed), ("ufixed", .abi_ufixed), ("bytes", .abi_bytes), ("string", .abi_string)]

/-- The basic type `str` names, and `pos` past its name. -/
def basicType (str : List UInt8) : AbiType × Nat :=
  match basicTypes.find? fun entry => (startsWithString str (ascii entry.1) 0).1 with
  | some (name, type) => (type, (ascii name).length)
  | none => (.abi_none, 0)

/-- The size checks at the end of `determine`, given what was parsed and whether the name parsed; `bytes<N>` counts
its size in bits from here on, `address` is 160 bits and `function` 196.  The sum of a fixed-point type's sizes and
the bits of `bytes<N>` are `int` arithmetic, which wraps. -/
def checkSizes (type : AbiType) (whole decimal : Int) (ret : Bool) : Int × Bool :=
  if ¬ret then (whole, false)
  else
    match type with
    | .abi_int | .abi_uint => (whole, 0 < whole && whole ≤ 256 && whole.tmod 8 == 0 && decimal == 0)
    | .abi_address => if whole == 0 && decimal == 0 then (160, true) else (whole, false)
    | .abi_fixed | .abi_ufixed => (whole, 0 < whole && 0 < decimal && SignedWord.wrap 32 (whole + decimal) ≤ 256)
    | .abi_bytes =>
      let bits := SignedWord.wrap 32 (whole * 8)
      (bits, 0 < bits && bits ≤ 256 && decimal == 0)
    | .abi_function => if whole == 0 && decimal == 0 then (196, true) else (whole, false)
    | .abi_string => (whole, whole == 0 && decimal == 0)
    | _ => (whole, true)

/-- `ParameterType::determine`: the basic type, then an optional size, an optional `x` and decimal size, and an
optional list suffix `[N]` or `[]`. -/
def ParameterType.determine (str : List UInt8) : ParameterType :=
  let (type, pos) := basicType str
  if type = .abi_none then ⟨.abi_none, 0, 0, 0, false, str.length == pos⟩
  else
    let (strWhole, pos) := startsWithNumber str pos
    let (hasDecimal, pos) := startsWithString str (ascii "x") pos
    let (strDecimal, pos) := if hasDecimal then startsWithNumber str pos else ([], pos)
    let (hasList, pos) := startsWithString str (ascii "[") pos
    let (strLength, pos) := if hasList then startsWithNumber str pos else ([], pos)
    let (isList, pos) := if hasList then startsWithString str (ascii "]") pos else (false, pos)
    let ret := (!hasDecimal || !strDecimal.isEmpty) && (!hasList || isList) && str.length == pos
    let (whole, valid) := checkSizes type (atoi strWhole) (atoi strDecimal) ret
    ⟨type, whole, atoi strDecimal, atoi strLength, isList, valid⟩

/-- The list length `determine` stores is an `int`: what `atoi` read, or zero. -/
theorem determine_length_inRange (str : List UInt8) :
    SignedWord.InRange 32 (ParameterType.determine str).length := by
  unfold ParameterType.determine
  split
  split_ifs
  · show SignedWord.InRange 32 0
    decide
  · exact atoi_inRange _

/-- `totalBytes`: the `ceil` of the `int` sum of the sizes over `8.0`.  It is only compared with zero, which its
conversion to `size_t` keeps. -/
def ParameterType.totalBytes (t : ParameterType) : Int := -((-SignedWord.wrap 32 (t.whole + t.decimal)) / 8)

/-- `isDynamic`: `bytes` of no size and `string` always, a list when its length is not given. -/
def ParameterType.isDynamic (t : ParameterType) : Bool :=
  if (t.type = .abi_bytes ∧ t.totalBytes = 0) ∨ t.type = .abi_string then true
  else if t.isList then t.length == 0 else false

/-- `ParameterABI`, by the name of its type. -/
structure ParameterABI where
  type : List UInt8

/-- `decodeType`: the parse of the parameter's type name. -/
def ParameterABI.decodeType (param : ParameterABI) : ParameterType := ParameterType.determine param.type

/-- `ParameterABI::ErrorType`. -/
inductive ErrorType where
  | Ok
  | UnsupportedABI
  | EncodingError
  | DecodingError
  deriving DecidableEq, Repr

/-! ### Encoding -/

/-- `abiInBasic`: the hex word `value` encodes to, `none` for a type it does not encode (it returns `false` and
leaves `UnsupportedABI`); `.error` where `u256`'s constructor throws. -/
def abiInBasic (u256 : U256FromString) (abiType : AbiType) (value : List UInt8) : Except Unit (Option (List UInt8)) :=
  match abiType with
  | .abi_bytes => .ok (some (toHex (toString32 (fromHex value))))
  | .abi_bool => uintWord (if value = ascii "false" then ascii "0" else ascii "1")
  | .abi_int => uintWord value
  | .abi_uint => uintWord value
  | .abi_address => .ok (some (toHex (List.replicate 12 0 ++ toBigEndian (fromBigEndian 160 (fromHex value)) 20)))
  | _ => .ok none
where
  uintWord (value : List UInt8) : Except Unit (Option (List UInt8)) :=
    match u256.ofString value with
    | some n => .ok (some (wordHex n))
    | none => .error ()

/-- `abiInBasic` on each of `values`, appending each word to `data`; a type it does not encode appends nothing and
leaves `UnsupportedABI`.  `.error` carries what was appended when `u256`'s constructor threw. -/
def abiInBasics (u256 : U256FromString) (abiType : AbiType) :
    List (List UInt8) → List UInt8 → ErrorType → Except (List UInt8) (List UInt8 × ErrorType)
  | [], data, lastError => .ok (data, lastError)
  | value :: values, data, lastError =>
    match abiInBasic u256 abiType value with
    | .error () => .error data
    | .ok none => abiInBasics u256 abiType values data .UnsupportedABI
    | .ok (some word) => abiInBasics u256 abiType values (data ++ word) lastError

/-- `addDynamic`: the head word of `paramData` goes into `data`, the rest into `mapDynamic` under the head's
position.  Positions only grow, so the map's order is the order of the calls. -/
def addDynamic (paramData data : List UInt8) (mapDynamic : List (Nat × List UInt8)) :
    List UInt8 × List (Nat × List UInt8) :=
  (data ++ paramData.take HEX_INSTRUCTION_SIZE, mapDynamic ++ [(data.length, paramData.drop HEX_INSTRUCTION_SIZE)])

/-- What `ParameterABI::abiIn` leaves: whether it succeeded, `data`, `mapDynamic` and `m_lastError`. -/
structure InResult where
  ok : Bool
  data : List UInt8
  mapDynamic : List (Nat × List UInt8)
  lastError : ErrorType

/-- `ParameterABI::abiIn`: `value` appended to `data` as the parameter's type says. -/
def ParameterABI.abiIn (u256 : U256FromString) (param : ParameterABI) (value : List (List UInt8)) (data : List UInt8)
    (mapDynamic : List (Nat × List UInt8)) : InResult :=
  let type := param.decodeType
  let value0 := value.getD 0 []
  if type.isDynamic ∧ ¬type.isList then
    -- a dynamic basic type: bytes or characters
    match type.type with
    | .abi_bytes =>
      let (data, mapDynamic) := addDynamic (toHex (serialiseString (fromHex value0))) data mapDynamic
      ⟨true, data, mapDynamic, .Ok⟩
    | .abi_string =>
      let (data, mapDynamic) := addDynamic (toHex (serialiseString value0)) data mapDynamic
      ⟨true, data, mapDynamic, .Ok⟩
    | _ => ⟨false, data, mapDynamic, .UnsupportedABI⟩
  else if ¬type.isDynamic ∧ ¬type.isList then
    -- a static basic type; what `abiInBasic` returns is not read
    match abiInBasics u256 type.type [value0] data .Ok with
    | .ok (data, lastError) => ⟨true, data, mapDynamic, lastError⟩
    | .error data => ⟨false, data, mapDynamic, .EncodingError⟩
  else if type.isDynamic ∧ type.isList then
    -- a dynamic list: the offset, the length and the elements, all as the dynamic part
    match abiInBasics u256 type.type value (wordHex 32 ++ wordHex value.length) .Ok with
    | .ok (paramData, lastError) =>
      let (data, mapDynamic) := addDynamic paramData data mapDynamic
      ⟨true, data, mapDynamic, lastError⟩
    | .error _ => ⟨false, data, mapDynamic, .EncodingError⟩
  else
    -- a static list: `length()` words in place, the `int` length read as a `size_t`
    match abiInBasics u256 type.type ((List.range (toSizeT type.length)).map fun i => value.getD i []) data .Ok with
    | .ok (data, lastError) => ⟨true, data, mapDynamic, lastError⟩
    | .error data => ⟨false, data, mapDynamic, .EncodingError⟩

/-- `processDynamicParams`: each head word recorded in `mapDynamic` gets the offset of the end of `data` so far, in
bytes, and the dynamic part is appended there. -/
def processDynamicParams (mapDynamic : List (Nat × List UInt8)) (data : List UInt8) : List UInt8 :=
  mapDynamic.foldl
    (fun data entry =>
      let strRef := wordHex (data.length / 2)
      (data.take entry.1 ++ strRef ++ data.drop (entry.1 + strRef.length)) ++ entry.2)
    data

/-- The loop of `FunctionABI::abiIn` over the inputs from the `i`-th on, with the `params` so far. -/
def abiInLoop (u256 : U256FromString) (values : List (List (List UInt8))) :
    List ParameterABI → Nat → Bool → List UInt8 → List (Nat × List UInt8) → List ErrorType →
      Bool × List UInt8 × List (Nat × List UInt8) × List ErrorType
  | [], _, ret, params, mapDynamic, errors => (ret, params, mapDynamic, errors)
  | input :: inputs, i, ret, params, mapDynamic, errors =>
    let result := input.abiIn u256 (values.getD i []) params mapDynamic
    abiInLoop u256 values inputs (i + 1) (ret && result.ok) result.data result.mapDynamic
      (errors ++ [result.lastError])

/-- `FunctionABI`: its inputs and outputs, and the selector `cache` keeps, in hex. -/
structure FunctionABI where
  inputs : List ParameterABI
  outputs : List ParameterABI
  selector : List UInt8

/-- `FunctionABI::abiIn`: whether `values` encoded, the call data (`data` unchanged when not), and the errors. -/
def FunctionABI.abiIn (u256 : U256FromString) (f : FunctionABI) (values : List (List (List UInt8)))
    (data : List UInt8) : Bool × List UInt8 × List ErrorType :=
  let (ret, params, mapDynamic, errors) :=
    abiInLoop u256 values f.inputs 0 (f.inputs.length == values.length) [] [] []
  if ret then (ret, f.selector ++ processDynamicParams mapDynamic params, errors) else (ret, data, errors)

/-! ### Decoding -/

/-- `std::string::substr(pos, count)`: `.error` for the `out_of_range` it throws past the end. -/
def substr (data : List UInt8) (pos count : Nat) : Except Unit (List UInt8) :=
  if pos > data.length then .error () else .ok ((data.drop pos).take count)

/-- `abiOutBasic`: the value the word at `pos` holds, `none` for a type it does not decode. -/
def abiOutBasic (abiType : AbiType) (data : List UInt8) (pos : Nat) : Except Unit (Option (List UInt8)) := do
  let rawData := fromHex (← substr data pos HEX_INSTRUCTION_SIZE)
  match abiType with
  | .abi_bytes =>
    -- `populate` zero-fills the `string32` when the word is not all there
    let string32 := toString32 (cropped rawData 0 32)
    pure (some (toHex (toStringOfString32 string32)))
  | .abi_uint => pure (some (decimalString (wordAt rawData 0)))
  | .abi_int => pure (some (signedString (u2s (wordAt rawData 0))))
  | .abi_address => pure (some (toHex (toBigEndian (fromBigEndian 160 (cropped rawData 12 20)) 20)))
  | .abi_bool => pure (some (if wordAt rawData 0 = 0 then ascii "false" else ascii "true"))
  | _ => pure none

/-- `deserialiseString`: the string whose offset word is the `index`-th of `io`, an offset counted from `p` bytes
before `io`; the offset and the length go through `uint16_t`, and the offset's difference is `unsigned`. -/
def deserialiseString (io : List UInt8) (p index : Nat) : List UInt8 :=
  let o := (wordAt io (index * 32) % 2 ^ 16 + 2 ^ 32 - p % 2 ^ 32) % 2 ^ 32
  let s := wordAt io o % 2 ^ 16
  let content := cropped io ((o + 32) % 2 ^ 32) s
  content ++ List.replicate (s - content.length) 0

/-- What `ParameterABI::abiOut` leaves: whether it succeeded, `pos`, the values read and `m_lastError`. -/
structure OutResult where
  ok : Bool
  pos : Nat
  value : List (List UInt8)
  lastError : ErrorType

/-- The static-list loop of `abiOut`: `count` words from `pos` on. -/
def abiOutBasics (abiType : AbiType) (data : List UInt8) : Nat → Nat → List (List UInt8) → OutResult
  | 0, pos, value => ⟨true, pos, value, .Ok⟩
  | count + 1, pos, value =>
    match abiOutBasic abiType data pos with
    | .error () => ⟨false, pos, value, .DecodingError⟩
    | .ok none => ⟨false, pos, value, .UnsupportedABI⟩
    | .ok (some paramValue) => abiOutBasics abiType data count (pos + HEX_INSTRUCTION_SIZE) (value ++ [paramValue])

/-- The dynamic-list loop of `abiOut`, from the `i`-th of `count` elements on: bytes and strings through their
offset words, which stay at `pos`; other elements as words from `pos` on. -/
def abiOutList (abiType : AbiType) (data : List UInt8) : Nat → Nat → Nat → List (List UInt8) → OutResult
  | 0, _, pos, value => ⟨true, pos, value, .Ok⟩
  | count + 1, i, pos, value =>
    match abiType with
    | .abi_bytes =>
      match substr data pos (data.length - pos) with
      | .error () => ⟨false, pos, value, .DecodingError⟩
      | .ok rest => abiOutList abiType data count (i + 1) pos (value ++ [toHex (deserialiseString (fromHex rest) 0 i)])
    | .abi_string =>
      match substr data pos (data.length - pos) with
      | .error () => ⟨false, pos, value, .DecodingError⟩
      | .ok rest => abiOutList abiType data count (i + 1) pos (value ++ [deserialiseString (fromHex rest) 0 i])
    | _ =>
      match abiOutBasic abiType data pos with
      | .error () => ⟨false, pos, value, .DecodingError⟩
      | .ok none => ⟨false, pos, value, .UnsupportedABI⟩
      | .ok (some paramValue) =>
        abiOutList abiType data count (i + 1) (pos + HEX_INSTRUCTION_SIZE) (value ++ [paramValue])

/-- `ParameterABI::abiOut`: the parameter's value read from `data` at `pos`. -/
def ParameterABI.abiOut (param : ParameterABI) (data : List UInt8) (pos : Nat) : OutResult :=
  let type := param.decodeType
  if type.isDynamic ∧ ¬type.isList then
    -- a dynamic basic type, through its offset word
    match type.type, substr data pos (data.length - pos) with
    | .abi_bytes, .ok rest =>
      ⟨true, pos + HEX_INSTRUCTION_SIZE, [toHex (deserialiseString (fromHex rest) (pos / 2) 0)], .Ok⟩
    | .abi_string, .ok rest =>
      ⟨true, pos + HEX_INSTRUCTION_SIZE, [deserialiseString (fromHex rest) (pos / 2) 0], .Ok⟩
    | .abi_bytes, .error () => ⟨false, pos, [], .DecodingError⟩
    | .abi_string, .error () => ⟨false, pos, [], .DecodingError⟩
    | _, _ => ⟨false, pos, [], .UnsupportedABI⟩
  else if ¬type.isDynamic ∧ ¬type.isList then
    abiOutBasics type.type data 1 pos []
  else if type.isDynamic ∧ type.isList then
    -- the offset word, then the length and the elements at the offset; `pos` comes back after the offset word.
    -- The texts go through `atoi`, the doubled offset is an `int` product, and both are stored as `size_t`.
    match abiOutBasic .abi_uint data pos with
    | .error () => ⟨false, pos, [], .DecodingError⟩
    | .ok none => ⟨false, pos, [], .UnsupportedABI⟩
    | .ok (some offset) =>
      let oldPos := pos + HEX_INSTRUCTION_SIZE
      let pos := toSizeT (SignedWord.wrap 32 (atoi offset * 2))
      match abiOutBasic .abi_uint data pos with
      | .error () => ⟨false, pos, [], .DecodingError⟩
      | .ok none => ⟨false, pos, [], .UnsupportedABI⟩
      | .ok (some length) =>
        let result := abiOutList type.type data (toSizeT (atoi length)) 0 (pos + HEX_INSTRUCTION_SIZE) []
        if result.ok then { result with pos := oldPos } else result
  else
    abiOutBasics type.type data (toSizeT type.length) pos []

/-- The loop of `FunctionABI::abiOut` over the outputs, each read from where the one before stopped. -/
def abiOutLoop (data : List UInt8) :
    List ParameterABI → Nat → Bool → List (List (List UInt8)) → List ErrorType →
      Bool × List (List (List UInt8)) × List ErrorType
  | [], _, ret, values, errors => (ret, values, errors)
  | output :: outputs, pos, ret, values, errors =>
    let result := output.abiOut data pos
    abiOutLoop data outputs result.pos (ret && result.ok) (values ++ [result.value]) (errors ++ [result.lastError])

/-- `FunctionABI::abiOut`: whether `data` decoded, the values of the outputs, and the errors. -/
def FunctionABI.abiOut (f : FunctionABI) (data : List UInt8) : Bool × List (List (List UInt8)) × List ErrorType :=
  abiOutLoop data f.outputs 0 true [] []

/-- A function of one `bytes1` argument that returns it. -/
def bytes1Echo : FunctionABI := ⟨[⟨ascii "bytes1"⟩], [⟨ascii "bytes1"⟩], ascii "12345678"⟩

theorem abi_bytes_zero_truncated (u256 : U256FromString) :
    bytes1Echo.abiIn u256 [[ascii "00"]] [] = (true, ascii "12345678" ++ List.replicate 64 48, [.Ok]) ∧
      bytes1Echo.abiOut ((bytes1Echo.abiIn u256 [[ascii "00"]] []).2.1.drop 8) = (true, [[[]]], [.Ok]) := by
  -- a `bytes` argument never reaches `u256`'s constructor
  have hin : bytes1Echo.abiIn u256 [[ascii "00"]] [] = (true, ascii "12345678" ++ List.replicate 64 48, [.Ok]) := rfl
  refine ⟨hin, ?_⟩
  rw [hin]
  decide

end ContractAbi
end Wattx
