import Mathlib.Data.List.Forall2
import Mathlib.Data.List.GetD
import Mathlib.Data.List.TakeWhile
import Wattx.ContractAbi
/-!
# AbiRoundTrip — what the contract ABI codec reads back

The encoder writes each static scalar argument as one 32-byte word in hex, and the decoder reads the word at its
position back.  The word round trip is exact modulo `2 ^ 256`: `fromHex` undoes `toHex`, whose digits never start a
`0x` marker (`fromHex_toHex`), and `fromBigEndian` undoes `toBigEndian` (`fromBigEndian_toBigEndian`).  The decimal
text of a number never starts with `0` unless it is `0`, so every `u256` constructor with boost's documented
behaviour reads it as the number (`U256FromString.ofString_decimalString`).  So a
`uint` written in decimal below `2 ^ 256` comes back as the same text, an `int` from `-2 ^ 255` below `2 ^ 255`, a
`bool` written `true` or `false`, and a static `bytes` value of at most 32 bytes cut at its first zero byte
(`abiOutBasic_bytes`).  A function whose inputs and outputs are the same static scalars gets every argument without
a zero byte back from its own call data (`abi_static_roundtrip`).

A `string` is written as its offset, its length and its bytes, and `deserialiseString` reads the offset and the length
through `uint16_t`: a string comes back as its bytes up to its length modulo `2 ^ 16` (`abi_string_roundtrip_mod`).
-/
namespace Wattx
namespace ContractAbi

/-! ### Hex -/

theorem fromHexChar_hexDigit_fin : ∀ n : Fin 16, fromHexChar (hexDigit n) = some n := by decide

theorem fromHexChar_hexDigit {n : Nat} (hn : n < 16) : fromHexChar (hexDigit n) = some n :=
  fromHexChar_hexDigit_fin ⟨n, hn⟩

theorem hexDigit_ne_x : ∀ n : Fin 16, hexDigit n ≠ 120 := by decide

@[simp] theorem toHex_nil : toHex [] = [] := rfl

@[simp] theorem toHex_cons (b : UInt8) (bs : List UInt8) :
    toHex (b :: bs) = hexDigit (b.toNat / 16) :: hexDigit (b.toNat % 16) :: toHex bs := rfl

theorem toHex_append (bs cs : List UInt8) : toHex (bs ++ cs) = toHex bs ++ toHex cs := by
  simp only [toHex, List.flatMap_append]

theorem toHex_length (bs : List UInt8) : (toHex bs).length = 2 * bs.length := by
  induction bs with
  | nil => rfl
  | cons b bs ih =>
    simp only [toHex_cons, List.length_cons, ih]
    omega

theorem fromHexPairs_toHex (bs : List UInt8) : fromHexPairs (toHex bs) = some bs := by
  induction bs with
  | nil => rfl
  | cons b bs ih =>
    have hhi : b.toNat / 16 < 16 := by have := b.toNat_lt; omega
    have hlo : b.toNat % 16 < 16 := Nat.mod_lt _ (by decide)
    -- the two digits give back the byte
    have hbyte : (b.toNat / 16 * 16 + b.toNat % 16).toUInt8 = b := by
      rw [Nat.div_add_mod']
      exact UInt8.ofNat_toNat
    rw [toHex_cons, fromHexPairs, fromHexChar_hexDigit hhi, fromHexChar_hexDigit hlo]
    simp only [ih, Option.map_some, hbyte]

theorem fromHex_toHex (bs : List UInt8) : fromHex (toHex bs) = bs := by
  have hprefix : (toHex bs).take 2 ≠ ascii "0x" := by
    cases bs with
    | nil => decide
    | cons b bs =>
      have hx := hexDigit_ne_x ⟨b.toNat % 16, Nat.mod_lt _ (by decide)⟩
      intro h
      simp only [toHex_cons, List.take_succ_cons, List.take_zero] at h
      exact hx (List.cons.inj (List.cons.inj h).2).1
  have heven : (toHex bs).length % 2 = 0 := by rw [toHex_length]; omega
  simp only [fromHex, if_neg hprefix, heven, Nat.zero_ne_one, if_false, fromHexPairs_toHex, Option.getD_some]

/-! ### Big-endian words -/

theorem toBigEndian_length (n w : Nat) : (toBigEndian n w).length = w := by
  induction w generalizing n with
  | zero => rfl
  | succ w ih => simp only [toBigEndian, List.length_append, ih, List.length_singleton]

/-- Reading `w` big-endian bytes into at least `8 * w` bits gives the number back modulo `256 ^ w`. -/
theorem fromBigEndian_toBigEndian {bits w : Nat} (hw : 8 * w ≤ bits) (n : Nat) :
    fromBigEndian bits (toBigEndian n w) = n % 2 ^ (8 * w) := by
  induction w generalizing n with
  | zero => simp [toBigEndian, fromBigEndian, Nat.mod_one]
  | succ w ih =>
    -- the last byte goes in below the others
    have hprefix := ih (by omega) (n / 256)
    simp only [fromBigEndian] at hprefix
    have hsplit : n % 2 ^ (8 * (w + 1)) = n % 256 + 256 * (n / 256 % 2 ^ (8 * w)) := by
      rw [show 2 ^ (8 * (w + 1)) = 256 * 2 ^ (8 * w) by rw [Nat.mul_succ, Nat.pow_add]; omega, Nat.mod_mul]
    have hlt : n % 2 ^ (8 * (w + 1)) < 2 ^ bits :=
      Nat.lt_of_lt_of_le (Nat.mod_lt _ (Nat.two_pow_pos _)) (Nat.pow_le_pow_right (by decide) hw)
    simp only [fromBigEndian, toBigEndian, List.foldl_append, List.foldl_cons, List.foldl_nil, hprefix,
      UInt8.toNat_ofNat', Nat.toUInt8_eq]
    rw [hsplit] at hlt ⊢
    rw [Nat.mod_eq_of_lt (by omega)]
    omega

theorem wordAt_toBigEndian (n : Nat) : wordAt (toBigEndian n 32) 0 = n % 2 ^ 256 := by
  have hlen := toBigEndian_length n 32
  have hread := fromBigEndian_toBigEndian (show 8 * 32 ≤ 256 by decide) n
  rw [wordAt, cropped, if_pos (by omega), List.drop_zero, List.take_of_length_le (by omega), hread]

theorem wordHex_length (n : Nat) : (wordHex n).length = HEX_INSTRUCTION_SIZE := by
  rw [wordHex, toHex_length, toBigEndian_length]
  rfl

theorem substr_word {pre word post : List UInt8} (hword : word.length = HEX_INSTRUCTION_SIZE) :
    substr (pre ++ word ++ post) pre.length HEX_INSTRUCTION_SIZE = .ok word := by
  have hle : pre.length ≤ (pre ++ word ++ post).length := by simp only [List.length_append]; omega
  rw [substr, if_neg (Nat.not_lt.mpr hle), List.append_assoc, List.drop_left, List.take_left' hword]

/-! ### Decimal text -/

theorem digitByte {c : Char} (h : c.isDigit = true) :
    isDigit c.toNat.toUInt8 = true ∧ c.toNat.toUInt8.toNat = c.toNat := by
  simp only [Char.isDigit, Bool.and_eq_true, decide_eq_true_eq] at h
  have hlo : (48 : Nat) ≤ c.toNat := h.1
  have hhi : c.toNat ≤ 57 := h.2
  have hbyte : c.toNat.toUInt8.toNat = c.toNat := by
    rw [Nat.toUInt8_eq, UInt8.toNat_ofNat']
    omega
  refine ⟨?_, hbyte⟩
  simp only [isDigit, hbyte, Bool.and_eq_true, decide_eq_true_eq]
  omega

/-- `decimalValue`'s fold reads the bytes of digit characters as `Nat.ofDigitChars` reads the characters. -/
theorem foldlM_digits : ∀ (l : List Char), (∀ c ∈ l, c.isDigit = true) → ∀ init : Nat,
    (l.map fun c => c.toNat.toUInt8).foldlM (fun acc c => (decimalDigit c).map (acc * 10 + ·)) init =
      some (Nat.ofDigitChars 10 l init)
  | [], _, _ => rfl
  | c :: l, h, init => by
    obtain ⟨hdigit, hbyte⟩ := digitByte (h c List.mem_cons_self)
    have ih := foldlM_digits l (fun c' hc' => h c' (List.mem_cons_of_mem _ hc')) (init * 10 + (c.toNat - 48))
    have hhead : decimalDigit c.toNat.toUInt8 = some (c.toNat - 48) := by rw [decimalDigit, if_pos hdigit, hbyte]
    rw [List.map_cons, List.foldlM_cons, hhead, Option.map_some, Option.bind_eq_bind, Option.bind_some, ih,
      Nat.mul_comm]
    rfl

theorem decimalValue_decimalString (n : Nat) : decimalValue (decimalString n) = some n := by
  rw [decimalValue, digitsValue, decimalString,
    foldlM_digits _ (fun c hc => Nat.isDigit_of_mem_toDigits (by decide) (by decide) hc), Nat.ofDigitChars_ten_toDigits]

theorem decimalString_digits (n : Nat) : ∀ c ∈ decimalString n, isDigit c = true := by
  intro c hc
  obtain ⟨d, hd, rfl⟩ := List.mem_map.mp hc
  exact (digitByte (Nat.isDigit_of_mem_toDigits (by decide) (by decide) hd)).1

theorem decimalString_head_ne_minus (n : Nat) : (decimalString n).head? ≠ some 45 := by
  intro h
  have hdigit := decimalString_digits n 45 (List.mem_of_head? h)
  exact absurd hdigit (by decide)

/-- The first digit of a positive number is not `0`. -/
theorem toDigits_head_ne_zero {n : Nat} (hn : 0 < n) : (Nat.toDigits 10 n).head? ≠ some '0' := by
  induction n using Nat.strong_induction_on with
  | _ n ih =>
    by_cases hlt : n < 10
    · have hdigit : ∀ m : Fin 10, 0 < m.val → Nat.digitChar m ≠ '0' := by decide
      rw [Nat.toDigits_of_lt_base hlt, List.head?_cons, Ne, Option.some.injEq]
      exact hdigit ⟨n, hlt⟩ hn
    · -- the digits of `n / 10` come first
      rw [Nat.toDigits_of_base_le (by decide) (by omega), List.head?_append_of_ne_nil _ Nat.toDigits_ne_nil]
      exact ih (n / 10) (by omega) (by omega)

theorem decimalString_head_ne_zero {n : Nat} (hn : 0 < n) : (decimalString n).head? ≠ some 48 := by
  obtain ⟨c, cs, hcs⟩ := List.exists_cons_of_ne_nil (Nat.toDigits_ne_nil (n := n) (b := 10))
  have hdigit : c.isDigit = true := Nat.isDigit_of_mem_toDigits (by decide) (by decide) (hcs ▸ List.mem_cons_self)
  have hzero : c ≠ '0' := fun h => toDigits_head_ne_zero hn (by rw [hcs, h]; rfl)
  rw [decimalString, hcs, List.map_cons, List.head?_cons, Ne, Option.some.injEq]
  intro h
  apply hzero
  have hbyte := (digitByte hdigit).2
  rw [h] at hbyte
  exact Char.toNat_inj.mp hbyte.symm

namespace U256FromString

variable (u256 : U256FromString)

/-- Every `u256` constructor with boost's documented behaviour reads a number's decimal text back, `0` as an octal
number with no digits after its `0`. -/
theorem ofString_decimalString {n : Nat} (hn : n < 2 ^ 256) : u256.ofString (decimalString n) = some n := by
  rcases Nat.eq_zero_or_pos n with rfl | hpos
  · rw [show decimalString 0 = [48] from rfl, u256.octal [] (by simp) (by simp)]
    rfl
  · rw [u256.decimal _ (decimalString_head_ne_zero hpos) (decimalString_head_ne_minus n), decimalValue_decimalString,
      Option.map_some, Nat.mod_eq_of_lt hn]

/-- An `int` in range is written as its value modulo `2 ^ 256`. -/
theorem ofString_signedString {z : Int} (hlo : -2 ^ 255 ≤ z) (hhi : z < 2 ^ 255) :
    u256.ofString (signedString z) = some (z % 2 ^ 256).toNat := by
  unfold signedString
  split_ifs with hneg
  · rw [u256.negate _ (decimalString_head_ne_minus _), u256.ofString_decimalString (by omega), Option.map_some,
      Option.some.injEq]
    omega
  · rw [u256.ofString_decimalString (by omega)]
    congr 1
    omega

end U256FromString

theorem u2s_emod {z : Int} (hlo : -2 ^ 255 ≤ z) (hhi : z < 2 ^ 255) : u2s (z % 2 ^ 256).toNat = z := by
  unfold u2s
  split_ifs <;> omega

/-! ### Static scalars -/

/-- A value of a static scalar parameter, as a caller writes it. -/
inductive ScalarValue where
  | uint (n : Nat)
  | int (z : Int)
  | bool (b : Bool)
  | bytes (bs : List UInt8)

namespace ScalarValue

def abiType : ScalarValue → AbiType
  | .uint _ => .abi_uint
  | .int _ => .abi_int
  | .bool _ => .abi_bool
  | .bytes _ => .abi_bytes

/-- The argument's text: decimal for numbers, `true` or `false`, hex for bytes. -/
def text : ScalarValue → List UInt8
  | .uint n => decimalString n
  | .int z => signedString z
  | .bool b => if b then ascii "true" else ascii "false"
  | .bytes bs => toHex bs

/-- The hex word the argument is written as. -/
def word : ScalarValue → List UInt8
  | .uint n => wordHex n
  | .int z => wordHex (z % 2 ^ 256).toNat
  | .bool b => wordHex (if b then 1 else 0)
  | .bytes bs => toHex (toString32 bs)

/-- The values the codec reads back as written: numbers in range, and at most 32 bytes with no zero among them. -/
def Faithful : ScalarValue → Prop
  | .uint n => n < 2 ^ 256
  | .int z => -2 ^ 255 ≤ z ∧ z < 2 ^ 255
  | .bool _ => True
  | .bytes bs => bs.length ≤ 32 ∧ 0 ∉ bs

instance : DecidablePred Faithful
  | .uint n => inferInstanceAs (Decidable (n < 2 ^ 256))
  | .int z => inferInstanceAs (Decidable (-2 ^ 255 ≤ z ∧ z < 2 ^ 255))
  | .bool _ => inferInstanceAs (Decidable True)
  | .bytes bs => inferInstanceAs (Decidable (bs.length ≤ 32 ∧ 0 ∉ bs))

end ScalarValue

theorem toString32_length (bs : List UInt8) : (toString32 bs).length = 32 := by
  simp only [toString32, List.length_append, List.length_take, List.length_replicate]
  omega

/-- A value of at most 32 bytes comes back from its `string32` cut at its first zero byte. -/
theorem toStringOfString32_toString32 {bs : List UInt8} (h : bs.length ≤ 32) :
    toStringOfString32 (toString32 bs) = bs.takeWhile (· ≠ 0) := by
  rw [toStringOfString32, toString32, List.take_of_length_le h, List.takeWhile_append]
  split_ifs with hall
  · -- no zero in `bs`: the padding stops the cut
    have hself : bs.takeWhile (· ≠ 0) = bs := (List.takeWhile_prefix _).eq_of_length hall
    rw [hself, List.takeWhile_replicate]
    simp
  · rfl

theorem ScalarValue.word_length (v : ScalarValue) : v.word.length = HEX_INSTRUCTION_SIZE := by
  cases v with
  | bytes bs => rw [word, toHex_length, toString32_length]; rfl
  | _ => exact wordHex_length _

/-- `abiInBasic` writes a faithful value as its word. -/
theorem abiInBasic_text (u256 : U256FromString) {v : ScalarValue} (hv : v.Faithful) :
    abiInBasic u256 v.abiType v.text = .ok (some v.word) := by
  cases v with
  | uint n =>
    simp only [ScalarValue.abiType, ScalarValue.text, ScalarValue.word, abiInBasic, abiInBasic.uintWord,
      u256.ofString_decimalString (show n < 2 ^ 256 from hv)]
  | int z =>
    simp only [ScalarValue.abiType, ScalarValue.text, ScalarValue.word, abiInBasic, abiInBasic.uintWord,
      u256.ofString_signedString hv.1 hv.2]
  | bool b =>
    -- `false` goes through `u256`'s constructor as `0`, `true` as `1`
    have hzero : u256.ofString (ascii "0") = some 0 := u256.ofString_decimalString (n := 0) (by decide)
    have hone : u256.ofString (ascii "1") = some 1 := u256.ofString_decimalString (n := 1) (by decide)
    have hne : ascii "true" ≠ ascii "false" := by decide
    cases b with
    | false =>
      simp only [ScalarValue.abiType, ScalarValue.text, ScalarValue.word, abiInBasic, abiInBasic.uintWord, if_pos,
        Bool.false_eq_true, if_false, hzero]
    | true =>
      simp only [ScalarValue.abiType, ScalarValue.text, ScalarValue.word, abiInBasic, abiInBasic.uintWord, if_true,
        hne, if_false, hone]
  | bytes bs => simp only [ScalarValue.abiType, ScalarValue.text, ScalarValue.word, abiInBasic, fromHex_toHex]

/-- A static `bytes` word of at most 32 bytes reads back cut at the first zero byte. -/
theorem abiOutBasic_bytes (pre post : List UInt8) {bs : List UInt8} (h : bs.length ≤ 32) :
    abiOutBasic .abi_bytes (pre ++ toHex (toString32 bs) ++ post) pre.length =
      .ok (some (toHex (bs.takeWhile (· ≠ 0)))) := by
  have hword : (toHex (toString32 bs)).length = HEX_INSTRUCTION_SIZE := by
    rw [toHex_length, toString32_length]; rfl
  have hcrop : cropped (toString32 bs) 0 32 = toString32 bs := by
    rw [cropped, if_pos (by rw [toString32_length]), List.drop_zero,
      List.take_of_length_le (by rw [toString32_length])]
  have hpad : toString32 (toString32 bs) = toString32 bs := by
    rw [toString32, List.take_of_length_le (by rw [toString32_length]), toString32_length, Nat.sub_self,
      List.replicate_zero, List.append_nil]
  simp only [abiOutBasic, substr_word hword, bind, Except.bind, fromHex_toHex, hcrop, hpad,
    toStringOfString32_toString32 h, pure, Except.pure]

/-- The three numeric reads of a number's word: the number modulo `2 ^ 256` in decimal, as an `s256`, and as a
`bool`. -/
theorem abiOutBasic_wordHex (pre post : List UInt8) (n : Nat) :
    abiOutBasic .abi_uint (pre ++ wordHex n ++ post) pre.length = .ok (some (decimalString (n % 2 ^ 256))) ∧
      abiOutBasic .abi_int (pre ++ wordHex n ++ post) pre.length =
        .ok (some (signedString (u2s (n % 2 ^ 256)))) ∧
      abiOutBasic .abi_bool (pre ++ wordHex n ++ post) pre.length =
        .ok (some (if n % 2 ^ 256 = 0 then ascii "false" else ascii "true")) := by
  simp only [abiOutBasic, substr_word (wordHex_length _), bind, Except.bind, pure, Except.pure]
  rw [wordHex, fromHex_toHex, wordAt_toBigEndian]
  exact ⟨rfl, rfl, rfl⟩

/-- `abiOutBasic` reads a faithful value's word back as its text. -/
theorem abiOutBasic_word (pre post : List UInt8) {v : ScalarValue} (hv : v.Faithful) :
    abiOutBasic v.abiType (pre ++ v.word ++ post) pre.length = .ok (some v.text) := by
  cases v with
  | bytes bs =>
    rw [ScalarValue.word, ScalarValue.abiType, abiOutBasic_bytes pre post hv.1, ScalarValue.text,
      List.takeWhile_eq_self_iff.mpr fun x hx => by simpa using ne_of_mem_of_not_mem hx hv.2]
  | uint n =>
    rw [ScalarValue.word, ScalarValue.abiType, (abiOutBasic_wordHex pre post n).1,
      Nat.mod_eq_of_lt (show n < 2 ^ 256 from hv), ScalarValue.text]
  | int z =>
    rw [ScalarValue.word, ScalarValue.abiType, (abiOutBasic_wordHex pre post _).2.1, Nat.mod_eq_of_lt (by omega),
      u2s_emod hv.1 hv.2, ScalarValue.text]
  | bool b =>
    rw [ScalarValue.word, ScalarValue.abiType, (abiOutBasic_wordHex pre post _).2.2, ScalarValue.text]
    cases b <;> rfl

/-! ### Parameters and functions -/

/-- A parameter whose type name parses as the static scalar type of `v`. -/
def ScalarParam (param : ParameterABI) (v : ScalarValue) : Prop :=
  param.decodeType.type = v.abiType ∧ param.decodeType.isDynamic = false ∧ param.decodeType.isList = false

instance (param : ParameterABI) (v : ScalarValue) : Decidable (ScalarParam param v) :=
  inferInstanceAs (Decidable (_ ∧ _ ∧ _))

section Scalar

variable {u256 : U256FromString} {param : ParameterABI} {v : ScalarValue}

/-- A static scalar argument is appended as the word `abiInBasic` writes. -/
theorem abiIn_scalar (hp : ScalarParam param v) {word : List UInt8}
    (hword : abiInBasic u256 v.abiType v.text = .ok (some word)) (rest : List (List UInt8)) (data : List UInt8)
    (mapDynamic : List (Nat × List UInt8)) :
    param.abiIn u256 (v.text :: rest) data mapDynamic = ⟨true, data ++ word, mapDynamic, .Ok⟩ := by
  obtain ⟨htype, hdyn, hlist⟩ := hp
  simp only [ParameterABI.abiIn, hdyn, hlist, htype, Bool.false_eq_true, false_and, if_false, not_false_eq_true,
    and_self, if_true, List.getD_cons_zero, abiInBasics, hword]

/-- A static scalar output is the text `abiOutBasic` reads at its position, which moves past the word. -/
theorem abiOut_scalar (hp : ScalarParam param v) {data text : List UInt8} {pos : Nat}
    (htext : abiOutBasic v.abiType data pos = .ok (some text)) :
    param.abiOut data pos = ⟨true, pos + HEX_INSTRUCTION_SIZE, [text], .Ok⟩ := by
  obtain ⟨htype, hdyn, hlist⟩ := hp
  simp only [ParameterABI.abiOut, hdyn, hlist, htype, Bool.false_eq_true, false_and, if_false, not_false_eq_true,
    and_self, if_true, abiOutBasics, htext, List.nil_append]

end Scalar

/-- The encoder's loop over static scalar inputs appends their words and leaves no dynamic part. -/
theorem abiInLoop_scalars (u256 : U256FromString) {inputs : List ParameterABI} {vs : List ScalarValue}
    (hp : List.Forall₂ ScalarParam inputs vs) (hv : ∀ v ∈ vs, v.Faithful) :
    ∀ (pre : List (List (List UInt8))) (ret : Bool) (data : List UInt8) (errors : List ErrorType),
      abiInLoop u256 (pre ++ vs.map fun v => [v.text]) inputs pre.length ret data [] errors =
        (ret, data ++ (vs.map ScalarValue.word).flatten, [], errors ++ List.replicate vs.length .Ok) := by
  induction hp with
  | nil =>
    intro pre ret data errors
    simp [abiInLoop]
  | @cons param v inputs vs hpv _ ih =>
    intro pre ret data errors
    have hget : (pre ++ (v :: vs).map fun v => [v.text]).getD pre.length [] = [v.text] := by
      rw [List.getD_append_right _ _ _ _ (Nat.le_refl _), Nat.sub_self]
      rfl
    have hrest := ih (fun w hw => hv w (List.mem_cons_of_mem _ hw)) (pre ++ [[v.text]]) (ret && true)
      (data ++ v.word) (errors ++ [.Ok])
    rw [List.append_assoc, List.length_append] at hrest
    rw [abiInLoop, hget, abiIn_scalar hpv (abiInBasic_text u256 (hv v List.mem_cons_self)), List.map_cons]
    simpa [List.append_assoc, List.replicate_succ] using hrest

/-- The decoder's loop over static scalar outputs reads each word where the one before ended. -/
theorem abiOutLoop_scalars {outputs : List ParameterABI} {vs : List ScalarValue}
    (hp : List.Forall₂ ScalarParam outputs vs) (hv : ∀ v ∈ vs, v.Faithful) :
    ∀ (pre : List UInt8) (ret : Bool) (values : List (List (List UInt8))) (errors : List ErrorType),
      abiOutLoop (pre ++ (vs.map ScalarValue.word).flatten) outputs pre.length ret values errors =
        (ret, values ++ vs.map (fun v => [v.text]), errors ++ List.replicate vs.length .Ok) := by
  induction hp with
  | nil =>
    intro pre ret values errors
    simp [abiOutLoop]
  | @cons param v outputs vs hpv _ ih =>
    intro pre ret values errors
    have hrest := ih (fun w hw => hv w (List.mem_cons_of_mem _ hw)) (pre ++ v.word) (ret && true)
      (values ++ [[v.text]]) (errors ++ [.Ok])
    rw [List.length_append, ScalarValue.word_length] at hrest
    rw [List.map_cons, List.flatten_cons, ← List.append_assoc, abiOutLoop,
      abiOut_scalar hpv (abiOutBasic_word pre _ (hv v List.mem_cons_self))]
    simpa [List.append_assoc, List.replicate_succ] using hrest

theorem abi_static_roundtrip (u256 : U256FromString) {f : FunctionABI} {vs : List ScalarValue}
    (hin : List.Forall₂ ScalarParam f.inputs vs) (hout : List.Forall₂ ScalarParam f.outputs vs)
    (hv : ∀ v ∈ vs, v.Faithful) (data : List UInt8) :
    f.abiIn u256 (vs.map fun v => [v.text]) data =
        (true, f.selector ++ (vs.map ScalarValue.word).flatten, List.replicate vs.length .Ok) ∧
      f.abiOut (vs.map ScalarValue.word).flatten = (true, vs.map fun v => [v.text], List.replicate vs.length .Ok) := by
  have hlen : (f.inputs.length == (vs.map fun v => [v.text]).length) = true := by
    simp [hin.length_eq]
  have hin' := abiInLoop_scalars u256 hin hv [] true [] []
  have hout' := abiOutLoop_scalars hout hv [] true [] []
  simp only [List.nil_append, List.length_nil] at hin' hout'
  constructor
  · simp only [FunctionABI.abiIn, hlen, hin', processDynamicParams, List.foldl_nil, if_true]
  · rw [FunctionABI.abiOut, hout']


/-- A function of a `uint256`, an `int256`, a `bool` and a `bytes4` that returns them. -/
def scalarEcho : FunctionABI :=
  ⟨[⟨ascii "uint256"⟩, ⟨ascii "int256"⟩, ⟨ascii "bool"⟩, ⟨ascii "bytes4"⟩],
    [⟨ascii "uint256"⟩, ⟨ascii "int256"⟩, ⟨ascii "bool"⟩, ⟨ascii "bytes4"⟩], ascii "12345678"⟩

def scalarArgs : List ScalarValue := [.uint 7, .int (-5), .bool true, .bytes [1, 2, 3]]

theorem abi_static_roundtrip_on_echo :
    scalarEcho.abiIn U256FromString.standard (scalarArgs.map fun v => [v.text]) [] =
        (true, scalarEcho.selector ++ (scalarArgs.map ScalarValue.word).flatten,
          List.replicate scalarArgs.length .Ok) ∧
      scalarEcho.abiOut (scalarArgs.map ScalarValue.word).flatten =
        (true, scalarArgs.map fun v => [v.text], List.replicate scalarArgs.length .Ok) :=
  abi_static_roundtrip U256FromString.standard (by decide) (by decide) (by decide) []

/-- A static `bytes` argument of at most 32 bytes is written as its `string32` and read back cut at its first zero
byte. -/
theorem abi_bytes_cut_at_zero (u256 : U256FromString) {param : ParameterABI} {bs : List UInt8}
    (hp : ScalarParam param (.bytes bs)) (hlen : bs.length ≤ 32) (data : List UInt8) :
    param.abiIn u256 [toHex bs] data [] = ⟨true, data ++ toHex (toString32 bs), [], .Ok⟩ ∧
      param.abiOut (data ++ toHex (toString32 bs)) data.length =
        ⟨true, data.length + HEX_INSTRUCTION_SIZE, [toHex (bs.takeWhile (· ≠ 0))], .Ok⟩ := by
  have hword : abiInBasic u256 (ScalarValue.bytes bs).abiType (ScalarValue.bytes bs).text =
      .ok (some (toHex (toString32 bs))) := by
    simp only [ScalarValue.abiType, ScalarValue.text, abiInBasic, fromHex_toHex]
  have htext := abiOutBasic_bytes data [] hlen
  rw [List.append_nil] at htext
  exact ⟨abiIn_scalar hp hword [] data [], abiOut_scalar hp htext⟩

theorem abi_bytes_cut_at_zero_bytes3 :
    (⟨ascii "bytes3"⟩ : ParameterABI).abiIn U256FromString.standard [toHex [97, 0, 98]] [] [] =
        ⟨true, [] ++ toHex (toString32 [97, 0, 98]), [], .Ok⟩ ∧
      (⟨ascii "bytes3"⟩ : ParameterABI).abiOut ([] ++ toHex (toString32 [97, 0, 98])) ([] : List UInt8).length =
        ⟨true, ([] : List UInt8).length + HEX_INSTRUCTION_SIZE, [toHex ([97, 0, 98].takeWhile (· ≠ 0))], .Ok⟩ :=
  abi_bytes_cut_at_zero U256FromString.standard (by decide) (by decide) []

/-! ### Dynamic strings -/

/-- A parameter whose type name parses as `string`. -/
def StringParam (param : ParameterABI) : Prop :=
  param.decodeType.type = .abi_string ∧ param.decodeType.isDynamic = true ∧ param.decodeType.isList = false

instance (param : ParameterABI) : Decidable (StringParam param) := inferInstanceAs (Decidable (_ ∧ _ ∧ _))

/-- The padded bytes of a serialised string, after its offset and length words. -/
theorem toHex_serialiseString (s : List UInt8) :
    toHex (serialiseString s) =
      wordHex 32 ++ (wordHex s.length ++ toHex (s ++ List.replicate ((s.length + 31) / 32 * 32 - s.length) 0)) := by
  simp only [serialiseString, wordHex, toHex_append, List.append_assoc]

theorem cropped_word {pre word post : List UInt8} (hword : word.length = 32) :
    cropped (pre ++ word ++ post) pre.length 32 = word := by
  have hle : pre.length + 32 ≤ (pre ++ word ++ post).length := by simp only [List.length_append]; omega
  rw [cropped, if_pos hle, List.append_assoc, List.drop_left, List.take_left' hword]

theorem wordAt_append (pre post : List UInt8) (n : Nat) :
    wordAt (pre ++ toBigEndian n 32 ++ post) pre.length = n % 2 ^ 256 := by
  have hread := fromBigEndian_toBigEndian (show 8 * 32 ≤ 256 by decide) n
  rw [wordAt, cropped_word (toBigEndian_length n 32), hread]

theorem deserialiseString_of_words {io : List UInt8} {p index o n : Nat}
    (ho : (wordAt io (index * 32) % 2 ^ 16 + 2 ^ 32 - p % 2 ^ 32) % 2 ^ 32 = o)
    (hn : wordAt io o % 2 ^ 16 = n) :
    deserialiseString io p index =
      cropped io ((o + 32) % 2 ^ 32) n ++ List.replicate (n - (cropped io ((o + 32) % 2 ^ 32) n).length) 0 := by
  subst ho hn
  rfl

/-- `deserialiseString` of a string serialised first: its bytes up to its length modulo `2 ^ 16`. -/
theorem deserialiseString_serialiseString (s : List UInt8) :
    deserialiseString (serialiseString s) 0 0 = s.take (s.length % 2 ^ 16) := by
  generalize hpad : List.replicate ((s.length + 31) / 32 * 32 - s.length) (0 : UInt8) = pad
  have hser : serialiseString s = toBigEndian 32 32 ++ toBigEndian s.length 32 ++ (s ++ pad) := by
    rw [serialiseString, hpad, List.append_assoc, List.append_assoc]
  have hoffset : wordAt (serialiseString s) (0 * 32) = 32 := by
    have := wordAt_append [] (toBigEndian s.length 32 ++ (s ++ pad)) 32
    rw [List.nil_append, List.length_nil, ← List.append_assoc, show 32 % 2 ^ 256 = 32 by decide] at this
    rw [hser, Nat.zero_mul, this]
  have hlength : wordAt (serialiseString s) 32 = s.length % 2 ^ 256 := by
    have := wordAt_append (toBigEndian 32 32) (s ++ pad) s.length
    rw [toBigEndian_length] at this
    rw [hser, this]
  -- the length word goes through `uint16_t`, and the bytes are read up to it
  have hcut : s.length % 2 ^ 256 % 2 ^ 16 = s.length % 2 ^ 16 := Nat.mod_mod_of_dvd _ (by decide)
  have hcontent : cropped (serialiseString s) 64 (s.length % 2 ^ 16) = s.take (s.length % 2 ^ 16) := by
    have hlen : 64 + s.length % 2 ^ 16 ≤ (serialiseString s).length := by
      rw [hser]
      simp only [List.length_append, toBigEndian_length]
      omega
    rw [cropped, if_pos hlen, hser, List.drop_left' (by simp only [List.length_append, toBigEndian_length]),
      List.take_append_of_le_length (Nat.mod_le _ _)]
  have ho : (wordAt (serialiseString s) (0 * 32) % 2 ^ 16 + 2 ^ 32 - 0 % 2 ^ 32) % 2 ^ 32 = 32 :=
    calc _ = (32 % 2 ^ 16 + 2 ^ 32 - 0 % 2 ^ 32) % 2 ^ 32 := by rw [hoffset]
      _ = 32 := by decide
  have hn : wordAt (serialiseString s) 32 % 2 ^ 16 = s.length % 2 ^ 16 := by rw [hlength, hcut]
  rw [deserialiseString_of_words ho hn, show (32 + 32) % 2 ^ 32 = 64 by decide, hcontent,
    List.length_take_of_le (Nat.mod_le _ _), Nat.sub_self, List.replicate_zero, List.append_nil]

section Strings

variable {param : ParameterABI}

/-- A `string` argument leaves its offset word in place and its length and bytes as the dynamic part. -/
theorem abiIn_string (u256 : U256FromString) (hp : StringParam param) (s : List UInt8) (rest : List (List UInt8))
    (data : List UInt8) (mapDynamic : List (Nat × List UInt8)) :
    param.abiIn u256 (s :: rest) data mapDynamic =
      ⟨true, data ++ (toHex (serialiseString s)).take HEX_INSTRUCTION_SIZE,
        mapDynamic ++ [(data.length, (toHex (serialiseString s)).drop HEX_INSTRUCTION_SIZE)], .Ok⟩ := by
  obtain ⟨htype, hdyn, hlist⟩ := hp
  simp only [ParameterABI.abiIn, hdyn, hlist, htype, Bool.false_eq_true, not_false_eq_true, and_self, if_true,
    List.getD_cons_zero, addDynamic]

/-- A `string` output at the start of the data is read through its offset word. -/
theorem abiOut_string (hp : StringParam param) (data : List UInt8) :
    param.abiOut data 0 = ⟨true, HEX_INSTRUCTION_SIZE, [deserialiseString (fromHex data) 0 0], .Ok⟩ := by
  obtain ⟨htype, hdyn, hlist⟩ := hp
  simp only [ParameterABI.abiOut, hdyn, hlist, htype, Bool.false_eq_true, not_false_eq_true, and_self, if_true,
    substr, Nat.not_lt_zero, if_false, List.drop_zero, Nat.sub_zero, List.take_length, Nat.zero_div, Nat.zero_add]

end Strings

/-- A function of one `string` argument and one `string` output writes the argument serialised, and reads such data
back as its bytes up to its length modulo `2 ^ 16`: a string of `2 ^ 16` bytes or more does not come back. -/
theorem abi_string_roundtrip_mod (u256 : U256FromString) {f : FunctionABI} {pin pout : ParameterABI}
    (hin : f.inputs = [pin]) (hout : f.outputs = [pout]) (hpin : StringParam pin) (hpout : StringParam pout)
    (s : List UInt8) :
    f.abiIn u256 [[s]] [] = (true, f.selector ++ toHex (serialiseString s), [.Ok]) ∧
      f.abiOut (toHex (serialiseString s)) = (true, [[s.take (s.length % 2 ^ 16)]], [.Ok]) := by
  have hhead : (toHex (serialiseString s)).take HEX_INSTRUCTION_SIZE = wordHex 32 := by
    rw [toHex_serialiseString, List.take_left' (wordHex_length 32)]
  constructor
  · -- the head word is replaced by the offset `32`, which it already is
    simp only [FunctionABI.abiIn, hin, abiInLoop, List.getD_cons_zero, abiIn_string u256 hpin, List.nil_append,
      List.length_nil, List.length_cons, beq_self_eq_true, Bool.and_self, if_true, processDynamicParams,
      List.foldl_cons, List.foldl_nil, hhead, wordHex_length, List.take_zero]
    have hdrop : (wordHex 32).drop (0 + HEX_INSTRUCTION_SIZE) = [] :=
      List.drop_eq_nil_of_le (by rw [wordHex_length]; omega)
    rw [show HEX_INSTRUCTION_SIZE / 2 = 32 from rfl, hdrop, List.append_nil, ← hhead, List.take_append_drop]
  · simp only [FunctionABI.abiOut, hout, abiOutLoop, abiOut_string hpout, fromHex_toHex,
      deserialiseString_serialiseString, Bool.and_self, List.nil_append]

/-- A function of one `string` that returns it. -/
def stringEcho : FunctionABI := ⟨[⟨ascii "string"⟩], [⟨ascii "string"⟩], ascii "12345678"⟩

theorem abi_string_roundtrip_mod_on_echo :
    stringEcho.abiIn U256FromString.standard [[ascii "abc"]] [] =
        (true, stringEcho.selector ++ toHex (serialiseString (ascii "abc")), [.Ok]) ∧
      stringEcho.abiOut (toHex (serialiseString (ascii "abc"))) =
        (true, [[(ascii "abc").take ((ascii "abc").length % 2 ^ 16)]], [.Ok]) :=
  abi_string_roundtrip_mod U256FromString.standard rfl rfl (by decide) (by decide) (ascii "abc")

end ContractAbi
end Wattx
