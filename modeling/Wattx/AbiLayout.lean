import Wattx.AbiRoundTrip
/-!
# AbiLayout — the head and tail layout the contract ABI codec writes and reads

The call data of the ABI is a head per argument, then the tails of the dynamic arguments: a static argument is its
words in place, a dynamic one a head word that holds the byte offset of its tail, and a tail is a length word and
the contents.  `heads` and `layout` state that layout over bytes, on their own terms.

`FunctionABI::abiIn` builds it in two passes.  The loop writes every head, with the placeholder `32` in a dynamic
one, and records each tail in `mapDynamic` under its head's position (`abiInLoop_parts`).  `processDynamicParams`
then writes each tail's offset into its head and appends the tail (`processDynamicParams_parts`).  So a function
whose inputs are uints, ints, bools, `bytes<N>`, addresses, static and dynamic lists of these, `bytes` and `string`
writes the layout of its arguments (`abi_encode_layout`).  The decoder reads each output at its head, and each tail
through its offset (`abiOutLoop_parts`).  Below `2 ^ 16` bytes, where the `uint16_t` of `deserialiseString` keeps the
offsets and the lengths, the layout reads back as the arguments' texts (`abi_decode_layout`).
-/
namespace Wattx
namespace ContractAbi

/-! ### Values -/

/-- A value of a type that `abiInBasic` writes as one word: a static scalar, or an `address`. -/
inductive WordValue where
  | scalar (v : ScalarValue)
  | address (n : Nat)

namespace WordValue

def abiType : WordValue → AbiType
  | scalar v => v.abiType
  | address _ => .abi_address

/-- The argument's text; an address is its 20 bytes in hex. -/
def text : WordValue → List UInt8
  | scalar v => v.text
  | address n => toHex (toBigEndian n 20)

/-- The 32 bytes of the word. -/
def bytes32 : WordValue → List UInt8
  | scalar (.uint n) => toBigEndian n 32
  | scalar (.int z) => toBigEndian (z % 2 ^ 256).toNat 32
  | scalar (.bool b) => toBigEndian (if b then 1 else 0) 32
  | scalar (.bytes bs) => toString32 bs
  | address n => List.replicate 12 0 ++ toBigEndian n 20

def Faithful : WordValue → Prop
  | scalar v => v.Faithful
  | address n => n < 2 ^ 160

instance : DecidablePred Faithful
  | scalar v => inferInstanceAs (Decidable v.Faithful)
  | address n => inferInstanceAs (Decidable (n < 2 ^ 160))

theorem toHex_bytes32_scalar (v : ScalarValue) : toHex (scalar v).bytes32 = v.word := by
  cases v <;> rfl

@[simp] theorem bytes32_length (w : WordValue) : w.bytes32.length = 32 := by
  cases w with
  | scalar v =>
    cases v with
    | bytes bs => exact toString32_length bs
    | _ => exact toBigEndian_length _ 32
  | address n => simp only [bytes32, List.length_append, List.length_replicate, toBigEndian_length]

theorem abiType_ne_string (w : WordValue) : w.abiType ≠ .abi_string := by
  cases w with
  | scalar v => cases v <;> nofun
  | address n => nofun

end WordValue

theorem length_flatten_bytes32 (ws : List WordValue) : (ws.map WordValue.bytes32).flatten.length = 32 * ws.length := by
  induction ws with
  | nil => rfl
  | cons w ws ih =>
    rw [List.map_cons, List.flatten_cons, List.length_append, ih, WordValue.bytes32_length, List.length_cons]
    omega

theorem abiInBasic_wordValue (u256 : U256FromString) {w : WordValue} (hw : w.Faithful) :
    abiInBasic u256 w.abiType w.text = .ok (some (toHex w.bytes32)) := by
  cases w with
  | scalar v =>
    rw [WordValue.abiType, WordValue.text, WordValue.toHex_bytes32_scalar]
    exact abiInBasic_text u256 hw
  | address n =>
    have hn : n < 2 ^ 160 := hw
    have hread := fromBigEndian_toBigEndian (show 8 * 20 ≤ 160 by decide) n
    simp only [WordValue.abiType, WordValue.text, WordValue.bytes32, abiInBasic, fromHex_toHex, hread,
      Nat.mod_eq_of_lt hn]

theorem abiOutBasic_address (pre post : List UInt8) {n : Nat} (hn : n < 2 ^ 160) :
    abiOutBasic .abi_address (pre ++ toHex (List.replicate 12 0 ++ toBigEndian n 20) ++ post) pre.length =
      .ok (some (toHex (toBigEndian n 20))) := by
  have hword : (toHex (List.replicate 12 0 ++ toBigEndian n 20)).length = HEX_INSTRUCTION_SIZE := by
    rw [toHex_length, List.length_append, List.length_replicate, toBigEndian_length]
    rfl
  have hcrop : cropped (List.replicate 12 0 ++ toBigEndian n 20) 12 20 = toBigEndian n 20 := by
    have hlen := toBigEndian_length n 20
    rw [cropped, if_pos (by simp only [List.length_append, List.length_replicate, hlen, Nat.le_refl]),
      List.drop_left' (List.length_replicate ..), List.take_of_length_le (Nat.le_of_eq hlen)]
  have hread := fromBigEndian_toBigEndian (show 8 * 20 ≤ 160 by decide) n
  simp only [abiOutBasic, substr_word hword, bind, Except.bind, fromHex_toHex, hcrop, hread, Nat.mod_eq_of_lt hn,
    pure, Except.pure]

theorem abiOutBasic_wordValue (pre post : List UInt8) {w : WordValue} (hw : w.Faithful) :
    abiOutBasic w.abiType (pre ++ toHex w.bytes32 ++ post) pre.length = .ok (some w.text) := by
  cases w with
  | scalar v =>
    rw [WordValue.abiType, WordValue.text, WordValue.toHex_bytes32_scalar]
    exact abiOutBasic_word pre post hw
  | address n => exact abiOutBasic_address pre post hw

/-! ### Lists of words -/

section Words

variable {t : AbiType}

theorem abiInBasics_words (u256 : U256FromString) :
    ∀ {ws : List WordValue}, (∀ w ∈ ws, w.abiType = t ∧ w.Faithful) →
    ∀ (data : List UInt8) (lastError : ErrorType),
      abiInBasics u256 t (ws.map WordValue.text) data lastError =
        .ok (data ++ toHex (ws.map WordValue.bytes32).flatten, lastError)
  | [], _, data, lastError => by simp [abiInBasics]
  | w :: ws, h, data, lastError => by
    obtain ⟨htype, hw⟩ := h w List.mem_cons_self
    have hword : abiInBasic u256 t w.text = .ok (some (toHex w.bytes32)) := htype ▸ abiInBasic_wordValue u256 hw
    rw [List.map_cons, abiInBasics, hword]
    simp only [abiInBasics_words u256 (fun w hw => h w (List.mem_cons_of_mem _ hw)), List.map_cons,
      List.flatten_cons, toHex_append, List.append_assoc]

theorem abiOutBasics_words : ∀ {ws : List WordValue}, (∀ w ∈ ws, w.abiType = t ∧ w.Faithful) →
    ∀ (pre post : List UInt8) (value : List (List UInt8)),
      abiOutBasics t (pre ++ toHex (ws.map WordValue.bytes32).flatten ++ post) ws.length pre.length value =
        ⟨true, pre.length + HEX_INSTRUCTION_SIZE * ws.length, value ++ ws.map WordValue.text, .Ok⟩
  | [], _, pre, post, value => by simp [abiOutBasics]
  | w :: ws, h, pre, post, value => by
    obtain ⟨htype, hw⟩ := h w List.mem_cons_self
    have hdata : pre ++ toHex ((w :: ws).map WordValue.bytes32).flatten ++ post =
        pre ++ toHex w.bytes32 ++ (toHex (ws.map WordValue.bytes32).flatten ++ post) := by
      simp only [List.map_cons, List.flatten_cons, toHex_append, List.append_assoc]
    have htext : abiOutBasic t (pre ++ toHex w.bytes32 ++ (toHex (ws.map WordValue.bytes32).flatten ++ post))
        pre.length = .ok (some w.text) := htype ▸ abiOutBasic_wordValue pre _ hw
    -- the rest is read after this word, from the prefix that ends with it
    have hrest := abiOutBasics_words (fun w hw => h w (List.mem_cons_of_mem _ hw)) (pre ++ toHex w.bytes32) post
      (value ++ [w.text])
    rw [List.append_assoc (pre ++ toHex w.bytes32)] at hrest
    have hlen : (pre ++ toHex w.bytes32).length = pre.length + HEX_INSTRUCTION_SIZE := by
      rw [List.length_append, toHex_length, WordValue.bytes32_length]
      rfl
    rw [hlen] at hrest
    rw [hdata, List.length_cons, abiOutBasics, htext]
    dsimp only
    rw [hrest, List.map_cons, List.append_assoc, List.singleton_append, Nat.mul_succ, Nat.add_assoc,
      Nat.add_comm HEX_INSTRUCTION_SIZE]

/-- One step of the dynamic-list loop of `abiOut` off `bytes` and `string`: the word at `pos`. -/
theorem abiOutList_succ (hbytes : t ≠ .abi_bytes) (hstring : t ≠ .abi_string) (data : List UInt8)
    (count i pos : Nat) (value : List (List UInt8)) :
    abiOutList t data (count + 1) i pos value =
      match abiOutBasic t data pos with
      | .error () => ⟨false, pos, value, .DecodingError⟩
      | .ok none => ⟨false, pos, value, .UnsupportedABI⟩
      | .ok (some paramValue) =>
        abiOutList t data count (i + 1) (pos + HEX_INSTRUCTION_SIZE) (value ++ [paramValue]) := by
  cases t <;> first | exact absurd rfl hbytes | exact absurd rfl hstring | rfl

theorem abiOutList_eq_abiOutBasics (hbytes : t ≠ .abi_bytes) (hstring : t ≠ .abi_string) (data : List UInt8) :
    ∀ count i pos value, abiOutList t data count i pos value = abiOutBasics t data count pos value
  | 0, _, _, _ => rfl
  | count + 1, i, pos, value => by
    rw [abiOutList_succ hbytes hstring, abiOutBasics]
    cases abiOutBasic t data pos with
    | error e => rfl
    | ok paramValue =>
      cases paramValue with
      | none => rfl
      | some paramValue => exact abiOutList_eq_abiOutBasics hbytes hstring data count (i + 1) _ _

end Words

/-! ### The layout -/

/-- How an argument is laid out: its words in place, or a tail that a head word points to. -/
inductive Part where
  | static (words : List UInt8)
  | dynamic (tail : List UInt8)

namespace Part

/-- The part's head when the tail starts at byte `offset`. -/
def head : Part → Nat → List UInt8
  | static words, _ => words
  | dynamic _, offset => toBigEndian offset 32

def tail : Part → List UInt8
  | static _ => []
  | dynamic tail => tail

def headSize : Part → Nat
  | static words => words.length
  | dynamic _ => 32

/-- What the encoder records in `mapDynamic` for the part when its head is at hex position `pos`. -/
def entry : Part → Nat → List (Nat × List UInt8)
  | static _, _ => []
  | dynamic tail, pos => [(pos, toHex tail)]

@[simp] theorem head_length (p : Part) (offset : Nat) : (p.head offset).length = p.headSize := by
  cases p with
  | static words => rfl
  | dynamic tail => exact toBigEndian_length offset 32

end Part

/-- The heads of `ps` when the first tail starts at byte `offset` and the tails follow one another. -/
def heads : List Part → Nat → List UInt8
  | [], _ => []
  | p :: ps, offset => p.head offset ++ heads ps (offset + p.tail.length)

def tails (ps : List Part) : List UInt8 := (ps.map Part.tail).flatten

def headSize : List Part → Nat
  | [] => 0
  | p :: ps => p.headSize + headSize ps

@[simp] theorem headSize_nil : headSize [] = 0 := rfl

@[simp] theorem headSize_cons (p : Part) (ps : List Part) : headSize (p :: ps) = p.headSize + headSize ps := rfl

/-- The call data of arguments laid out as `ps`: the heads, then the tails. -/
def layout (ps : List Part) : List UInt8 := heads ps (headSize ps) ++ tails ps

/-- The heads the encoder's loop writes: the placeholder offset `32` in every dynamic head. -/
def placeholders (ps : List Part) : List UInt8 := (ps.map fun p => p.head 32).flatten

@[simp] theorem placeholders_cons (p : Part) (ps : List Part) :
    placeholders (p :: ps) = p.head 32 ++ placeholders ps := by
  rw [placeholders, List.map_cons, List.flatten_cons, ← placeholders]

@[simp] theorem tails_cons (p : Part) (ps : List Part) : tails (p :: ps) = p.tail ++ tails ps := by
  rw [tails, List.map_cons, List.flatten_cons, ← tails]

/-- The `mapDynamic` the encoder's loop records for parts whose heads start at hex position `pos`. -/
def dynamicEntries : List Part → Nat → List (Nat × List UInt8)
  | [], _ => []
  | p :: ps, pos => p.entry pos ++ dynamicEntries ps (pos + 2 * p.headSize)

@[simp] theorem heads_length : ∀ (ps : List Part) (offset : Nat), (heads ps offset).length = headSize ps
  | [], _ => rfl
  | p :: ps, offset => by
    rw [heads, List.length_append, Part.head_length, heads_length ps, headSize_cons]

@[simp] theorem placeholders_length (ps : List Part) : (placeholders ps).length = headSize ps := by
  induction ps with
  | nil => rfl
  | cons p ps ih =>
    rw [placeholders_cons, List.length_append, Part.head_length, ih, headSize_cons]

/-- A string's tail: its length word, then its bytes padded with zeros to whole words. -/
def stringTail (s : List UInt8) : List UInt8 :=
  toBigEndian s.length 32 ++ s ++ List.replicate ((s.length + 31) / 32 * 32 - s.length) 0

theorem toHex_serialiseString_tail (s : List UInt8) : toHex (serialiseString s) = wordHex 32 ++ toHex (stringTail s) := by
  simp only [serialiseString, stringTail, wordHex, toHex_append, List.append_assoc]

/-! ### Arguments -/

/-- An argument of a type the codec both writes and reads: a word, a static list `T[N]` or a dynamic list `T[]` of
words, `bytes` or a `string`. -/
inductive AbiValue where
  | word (w : WordValue)
  | array (ws : List WordValue)
  | list (ws : List WordValue)
  | bytes (bs : List UInt8)
  | string (s : List UInt8)

namespace AbiValue

/-- The strings a caller passes for the argument: one per element of a list, the hex of `bytes`. -/
def texts : AbiValue → List (List UInt8)
  | word w => [w.text]
  | array ws => ws.map WordValue.text
  | list ws => ws.map WordValue.text
  | bytes bs => [toHex bs]
  | string s => [s]

def part : AbiValue → Part
  | word w => .static w.bytes32
  | array ws => .static (ws.map WordValue.bytes32).flatten
  | list ws => .dynamic (toBigEndian ws.length 32 ++ (ws.map WordValue.bytes32).flatten)
  | bytes bs => .dynamic (stringTail bs)
  | string s => .dynamic (stringTail s)

/-- The values the codec reads back as written: every word of the argument faithful. -/
def Faithful : AbiValue → Prop
  | word w => w.Faithful
  | array ws => ∀ w ∈ ws, w.Faithful
  | list ws => ∀ w ∈ ws, w.Faithful
  | bytes _ => True
  | string _ => True

instance : DecidablePred Faithful
  | word w => inferInstanceAs (Decidable w.Faithful)
  | array ws => inferInstanceAs (Decidable (∀ w ∈ ws, w.Faithful))
  | list ws => inferInstanceAs (Decidable (∀ w ∈ ws, w.Faithful))
  | bytes _ => inferInstanceAs (Decidable True)
  | string _ => inferInstanceAs (Decidable True)

end AbiValue

/-- A parameter whose type name parses as the type of `v`; a dynamic list holds words, neither `bytes` nor
`string`. -/
def AbiParam (param : ParameterABI) : AbiValue → Prop
  | .word w => param.decodeType.type = w.abiType ∧ param.decodeType.isDynamic = false ∧
      param.decodeType.isList = false
  | .array ws => param.decodeType.isDynamic = false ∧ param.decodeType.isList = true ∧
      param.decodeType.length = ws.length ∧ ∀ w ∈ ws, w.abiType = param.decodeType.type
  | .list ws => param.decodeType.isDynamic = true ∧ param.decodeType.isList = true ∧
      param.decodeType.type ≠ .abi_bytes ∧ ∀ w ∈ ws, w.abiType = param.decodeType.type
  | .bytes _ => param.decodeType.type = .abi_bytes ∧ param.decodeType.isDynamic = true ∧
      param.decodeType.isList = false
  | .string _ => StringParam param

instance (param : ParameterABI) : DecidablePred (AbiParam param)
  | .word _ => inferInstanceAs (Decidable (_ ∧ _ ∧ _))
  | .array _ => inferInstanceAs (Decidable (_ ∧ _ ∧ _ ∧ _))
  | .list _ => inferInstanceAs (Decidable (_ ∧ _ ∧ _ ∧ _))
  | .bytes _ => inferInstanceAs (Decidable (_ ∧ _ ∧ _))
  | .string _ => inferInstanceAs (Decidable (StringParam param))

/-! ### Encoding -/

theorem addDynamic_serialiseString (s data : List UInt8) (mapDynamic : List (Nat × List UInt8)) :
    addDynamic (toHex (serialiseString s)) data mapDynamic =
      (data ++ wordHex 32, mapDynamic ++ [(data.length, toHex (stringTail s))]) := by
  rw [addDynamic, toHex_serialiseString_tail, List.take_left' (wordHex_length 32),
    List.drop_left' (wordHex_length 32)]

theorem range_map_getD {α : Type} (l : List α) (d : α) : (List.range l.length).map (fun i => l.getD i d) = l := by
  refine List.ext_getElem (by simp) fun i _ h => ?_
  simp [List.getElem?_eq_getElem h]

/-- A static list's length, an `int` equal to the number of its elements, is that number as a `size_t`. -/
theorem toSizeT_length {param : ParameterABI} {ws : List WordValue} (hlen : param.decodeType.length = ws.length) :
    toSizeT param.decodeType.length = ws.length := by
  have hrange : SignedWord.InRange 32 param.decodeType.length := determine_length_inRange param.type
  rw [hlen] at hrange
  rw [hlen, toSizeT_natCast (by unfold SignedWord.InRange at hrange; omega)]

/-- `ParameterABI::abiIn` writes an argument's head, the placeholder `32` for a dynamic one, and records its tail. -/
theorem abiIn_value (u256 : U256FromString) {param : ParameterABI} {v : AbiValue} (hp : AbiParam param v)
    (hv : v.Faithful) (data : List UInt8) (mapDynamic : List (Nat × List UInt8)) :
    param.abiIn u256 v.texts data mapDynamic =
      ⟨true, data ++ toHex (v.part.head 32), mapDynamic ++ v.part.entry data.length, .Ok⟩ := by
  cases v with
  | word w =>
    obtain ⟨htype, hdyn, hlist⟩ := hp
    simp only [ParameterABI.abiIn, hdyn, hlist, htype, Bool.false_eq_true, false_and, if_false, not_false_eq_true,
      and_self, if_true, AbiValue.texts, List.getD_cons_zero, abiInBasics, abiInBasic_wordValue u256 hv, AbiValue.part,
      Part.head, Part.entry, List.append_nil]
  | array ws =>
    obtain ⟨hdyn, hlist, hlen, htypes⟩ := hp
    have hwords := abiInBasics_words u256 (fun w hw => ⟨htypes w hw, hv w hw⟩) data .Ok
    have hvalues : (List.range (toSizeT param.decodeType.length)).map (fun i => (ws.map WordValue.text).getD i []) =
        ws.map WordValue.text := by
      rw [toSizeT_length hlen, ← List.length_map WordValue.text, range_map_getD]
    simp only [ParameterABI.abiIn, hdyn, hlist, Bool.false_eq_true, false_and, if_false, not_false_eq_true,
      not_true_eq_false, and_self, and_false, AbiValue.texts, hvalues, hwords, AbiValue.part, Part.head, Part.entry,
      List.append_nil]
  | list ws =>
    obtain ⟨hdyn, hlist, -, htypes⟩ := hp
    have hwords := abiInBasics_words u256 (fun w hw => ⟨htypes w hw, hv w hw⟩) (wordHex 32 ++ wordHex ws.length) .Ok
    simp only [ParameterABI.abiIn, hdyn, hlist, if_false, and_self, not_true_eq_false, and_false, if_true,
      AbiValue.texts, List.length_map, hwords, addDynamic,
      List.append_assoc, List.take_left' (wordHex_length 32), List.drop_left' (wordHex_length 32), AbiValue.part,
      Part.head, Part.entry]
    simp only [wordHex, toHex_append]
  | bytes bs =>
    obtain ⟨htype, hdyn, hlist⟩ := hp
    simp only [ParameterABI.abiIn, hdyn, hlist, htype, Bool.false_eq_true, not_false_eq_true, and_self, if_true,
      AbiValue.texts, List.getD_cons_zero, fromHex_toHex, addDynamic_serialiseString, AbiValue.part, Part.head,
      Part.entry, wordHex]
  | string s =>
    rw [AbiValue.texts, abiIn_string u256 hp s [] data mapDynamic, toHex_serialiseString_tail,
      List.take_left' (wordHex_length 32), List.drop_left' (wordHex_length 32)]
    rfl

/-- The encoder's loop writes the placeholder heads of its arguments and records their tails under their heads'
positions. -/
theorem abiInLoop_parts (u256 : U256FromString) {inputs : List ParameterABI} {vs : List AbiValue}
    (hp : List.Forall₂ AbiParam inputs vs) (hv : ∀ v ∈ vs, v.Faithful) :
    ∀ (pre : List (List (List UInt8))) (ret : Bool) (data : List UInt8) (mapDynamic : List (Nat × List UInt8))
      (errors : List ErrorType),
      abiInLoop u256 (pre ++ vs.map AbiValue.texts) inputs pre.length ret data mapDynamic errors =
        (ret, data ++ toHex (placeholders (vs.map AbiValue.part)),
          mapDynamic ++ dynamicEntries (vs.map AbiValue.part) data.length, errors ++ List.replicate vs.length .Ok) := by
  induction hp with
  | nil =>
    intro pre ret data mapDynamic errors
    simp [abiInLoop, placeholders, dynamicEntries]
  | @cons param v inputs vs hpv _ ih =>
    intro pre ret data mapDynamic errors
    have hget : (pre ++ (v :: vs).map AbiValue.texts).getD pre.length [] = v.texts := by
      rw [List.getD_append_right _ _ _ _ (Nat.le_refl _), Nat.sub_self]
      rfl
    have hrest := ih (fun w hw => hv w (List.mem_cons_of_mem _ hw)) (pre ++ [v.texts]) (ret && true)
      (data ++ toHex (v.part.head 32)) (mapDynamic ++ v.part.entry data.length) (errors ++ [.Ok])
    rw [List.append_assoc, List.length_append] at hrest
    have hpos : (data ++ toHex (v.part.head 32)).length = data.length + 2 * v.part.headSize := by
      rw [List.length_append, toHex_length, Part.head_length]
    rw [hpos] at hrest
    rw [abiInLoop, hget, abiIn_value u256 hpv (hv v List.mem_cons_self)]
    simpa [placeholders, dynamicEntries, toHex_append, List.append_assoc, List.replicate_succ] using hrest

/-- One entry of `processDynamicParams`: the head at `pos` gets the length of the data so far, in bytes, and the
entry's tail is appended. -/
theorem processDynamicParams_cons (pos : Nat) (tail : List UInt8) (entries : List (Nat × List UInt8))
    (data : List UInt8) :
    processDynamicParams ((pos, tail) :: entries) data =
      processDynamicParams entries
        (data.take pos ++ wordHex (data.length / 2) ++ data.drop (pos + HEX_INSTRUCTION_SIZE) ++ tail) := by
  simp only [processDynamicParams, List.foldl_cons, wordHex_length]

theorem processDynamicParams_placeholder (pre rest tail : List UInt8) (n : Nat) (entries : List (Nat × List UInt8)) :
    processDynamicParams ((2 * pre.length, toHex tail) :: entries) (toHex pre ++ wordHex n ++ toHex rest) =
      processDynamicParams entries (toHex (pre ++ toBigEndian (pre.length + 32 + rest.length) 32 ++ rest ++ tail)) := by
  have hhead : (toHex pre ++ wordHex n).length = 2 * pre.length + HEX_INSTRUCTION_SIZE := by
    rw [List.length_append, toHex_length, wordHex_length]
  have hsize : (toHex pre ++ wordHex n ++ toHex rest).length / 2 = pre.length + 32 + rest.length := by
    rw [List.length_append, hhead, toHex_length]
    exact Nat.div_eq_of_eq_mul_left (by decide) (by rw [HEX_INSTRUCTION_SIZE]; omega)
  rw [processDynamicParams_cons, hsize, List.drop_left' hhead, List.append_assoc (toHex pre),
    List.take_left' (toHex_length pre)]
  simp only [wordHex, toHex_append]

/-- `processDynamicParams` resolves the placeholder heads after a resolved prefix `pre`, with the tails `done`
already appended: each dynamic head gets its tail's offset, and the tails follow in order. -/
theorem processDynamicParams_parts : ∀ (ps : List Part) (pre done : List UInt8),
    processDynamicParams (dynamicEntries ps (2 * pre.length)) (toHex pre ++ toHex (placeholders ps) ++ toHex done) =
      toHex (pre ++ heads ps (pre.length + headSize ps + done.length) ++ done ++ tails ps)
  | [], pre, done => by
    simp [processDynamicParams, dynamicEntries, placeholders, heads, tails, toHex_append]
  | .static words :: ps, pre, done => by
    -- no entry: the words stay, and the resolved prefix grows by them
    have hrest := processDynamicParams_parts ps (pre ++ words) done
    rw [List.length_append, Nat.mul_add] at hrest
    rw [dynamicEntries, Part.entry, List.nil_append, Part.headSize, placeholders_cons, Part.head, toHex_append,
      ← List.append_assoc (toHex pre), ← toHex_append, hrest, heads, tails_cons, Part.head, Part.tail,
      List.length_nil, Nat.add_zero, headSize_cons, Part.headSize]
    simp only [List.append_assoc, List.nil_append, Nat.add_assoc]
  | .dynamic tail :: ps, pre, done => by
    -- the data so far ends with `done`, so this head gets the offset `offset` and the tail goes after `done`
    obtain ⟨offset, hoffset⟩ : ∃ offset, offset = pre.length + headSize (.dynamic tail :: ps) + done.length :=
      ⟨_, rfl⟩
    have hword : pre.length + 32 + (placeholders ps ++ done).length = offset := by
      rw [hoffset, List.length_append, placeholders_length, headSize_cons, Part.headSize]
      omega
    have hnext : (pre ++ toBigEndian offset 32).length + headSize ps + (done ++ tail).length =
        offset + tail.length := by
      rw [hoffset, List.length_append, List.length_append, toBigEndian_length, headSize_cons, Part.headSize]
      omega
    have hrest := processDynamicParams_parts ps (pre ++ toBigEndian offset 32) (done ++ tail)
    rw [hnext, List.length_append, toBigEndian_length, Nat.mul_add] at hrest
    have hdata : toHex pre ++ toHex (placeholders (.dynamic tail :: ps)) ++ toHex done =
        toHex pre ++ wordHex 32 ++ toHex (placeholders ps ++ done) := by
      simp only [placeholders_cons, Part.head, wordHex, toHex_append, List.append_assoc]
    rw [dynamicEntries, Part.entry, List.singleton_append, Part.headSize, hdata, processDynamicParams_placeholder,
      hword, ← hoffset, heads, Part.head, Part.tail, tails_cons, Part.tail]
    simp only [toHex_append, List.append_assoc] at hrest ⊢
    exact hrest

/-- `FunctionABI::abiIn` writes the selector and then the layout of its arguments. -/
theorem abi_encode_layout (u256 : U256FromString) {f : FunctionABI} {vs : List AbiValue}
    (hin : List.Forall₂ AbiParam f.inputs vs) (hv : ∀ v ∈ vs, v.Faithful) (data : List UInt8) :
    f.abiIn u256 (vs.map AbiValue.texts) data =
      (true, f.selector ++ toHex (layout (vs.map AbiValue.part)), List.replicate vs.length .Ok) := by
  have hlen : (f.inputs.length == (vs.map AbiValue.texts).length) = true := by
    simp [hin.length_eq]
  have hloop := abiInLoop_parts u256 hin hv [] true [] [] []
  have hresolve := processDynamicParams_parts (vs.map AbiValue.part) [] []
  simp only [List.nil_append, List.length_nil, Nat.mul_zero, Nat.zero_add, Nat.add_zero, toHex_nil,
    List.append_nil] at hloop hresolve
  simp only [FunctionABI.abiIn, hlen, hloop, hresolve, if_true, layout]

/-! ### Decoding -/

theorem toHex_drop : ∀ (bs : List UInt8) (k : Nat), (toHex bs).drop (2 * k) = toHex (bs.drop k)
  | [], k => by simp
  | _ :: _, 0 => rfl
  | b :: bs, k + 1 => by simp [Nat.mul_succ, toHex_drop bs k]

theorem substr_toHex (bs : List UInt8) {k : Nat} (hk : k ≤ bs.length) :
    substr (toHex bs) (2 * k) ((toHex bs).length - 2 * k) = .ok (toHex (bs.drop k)) := by
  have hpos : ¬ 2 * k > (toHex bs).length := by rw [toHex_length]; omega
  rw [substr, if_neg hpos, toHex_drop, List.take_of_length_le (by rw [← toHex_drop, List.length_drop])]

theorem cropped_after (front word rest more : List UInt8) :
    cropped (front ++ word ++ (rest ++ more)) (front.length + word.length) rest.length = rest := by
  have hle : front.length + word.length + rest.length ≤ (front ++ word ++ (rest ++ more)).length := by
    simp only [List.length_append]
    omega
  rw [cropped, if_pos hle, ← List.length_append, List.drop_left, List.take_left]

/-- A string's tail read through its head word at byte `pre.length`: when the offset and the length fit in
`uint16_t`, `deserialiseString` gets the bytes back. -/
theorem deserialiseString_stringTail {L pre post front back s : List UInt8} {offset : Nat}
    (hL : L.length < 2 ^ 16) (hhead : L = pre ++ toBigEndian offset 32 ++ post)
    (htail : L = front ++ stringTail s ++ back) (hfront : front.length = offset) (hle : pre.length ≤ offset) :
    deserialiseString (L.drop pre.length) pre.length 0 = s := by
  generalize hpad : List.replicate ((s.length + 31) / 32 * 32 - s.length) (0 : UInt8) = pad
  rw [stringTail, hpad] at htail
  have hsize := congrArg List.length htail
  simp only [List.length_append, toBigEndian_length] at hsize
  -- the offset word at the head, read from the head on
  have hoffset : wordAt (L.drop pre.length) (0 * 32) = offset := by
    have hword := wordAt_append [] post offset
    rw [List.nil_append, List.length_nil] at hword
    rw [hhead, List.append_assoc, List.drop_left, Nat.zero_mul, hword, Nat.mod_eq_of_lt (by omega)]
  -- the tail, read from the head on, starts `offset - pre.length` bytes in
  have hfrom : L.drop pre.length =
      front.drop pre.length ++ toBigEndian s.length 32 ++ (s ++ (pad ++ back)) := by
    rw [htail, List.append_assoc, List.append_assoc, List.drop_append_of_le_length (by omega)]
    simp only [List.append_assoc]
  have hgap : (front.drop pre.length).length = offset - pre.length := by
    rw [List.length_drop, hfront]
  have ho : (wordAt (L.drop pre.length) (0 * 32) % 2 ^ 16 + 2 ^ 32 - pre.length % 2 ^ 32) % 2 ^ 32 =
      offset - pre.length := by
    rw [hoffset]
    omega
  have hn : wordAt (L.drop pre.length) (offset - pre.length) % 2 ^ 16 = s.length := by
    rw [hfrom, ← hgap, wordAt_append, Nat.mod_mod_of_dvd _ (by decide), Nat.mod_eq_of_lt (by omega)]
  have hcontent : cropped (L.drop pre.length) ((offset - pre.length + 32) % 2 ^ 32) s.length = s := by
    have hcrop := cropped_after (front.drop pre.length) (toBigEndian s.length 32) s (pad ++ back)
    rw [hgap, toBigEndian_length] at hcrop
    rw [Nat.mod_eq_of_lt (by omega), hfrom, hcrop]
  rw [deserialiseString_of_words ho hn, hcontent, Nat.sub_self, List.replicate_zero, List.append_nil]

/-- A `string` parameter reads its argument through the offset word of its head at byte `pre.length`. -/
theorem abiOut_string_at {param : ParameterABI} (hp : StringParam param) {L pre : List UInt8}
    (hk : pre.length ≤ L.length) :
    param.abiOut (toHex L) (2 * pre.length) =
      ⟨true, 2 * pre.length + HEX_INSTRUCTION_SIZE, [deserialiseString (L.drop pre.length) pre.length 0], .Ok⟩ := by
  obtain ⟨htype, hdyn, hlist⟩ := hp
  simp only [ParameterABI.abiOut, hdyn, hlist, htype, Bool.false_eq_true, not_false_eq_true, and_self, if_true,
    substr_toHex L hk, fromHex_toHex, Nat.mul_div_cancel_left _ (show 0 < 2 by decide)]

theorem abiOut_bytes_at {param : ParameterABI} (htype : param.decodeType.type = .abi_bytes)
    (hdyn : param.decodeType.isDynamic = true) (hlist : param.decodeType.isList = false) {L pre : List UInt8}
    (hk : pre.length ≤ L.length) :
    param.abiOut (toHex L) (2 * pre.length) =
      ⟨true, 2 * pre.length + HEX_INSTRUCTION_SIZE, [toHex (deserialiseString (L.drop pre.length) pre.length 0)],
        .Ok⟩ := by
  simp only [ParameterABI.abiOut, hdyn, hlist, htype, Bool.false_eq_true, not_false_eq_true, and_self, if_true,
    substr_toHex L hk, fromHex_toHex, Nat.mul_div_cancel_left _ (show 0 < 2 by decide)]

theorem isDigit_not_sign {c : UInt8} (h : isDigit c = true) :
    isSpace c = false ∧ c.toNat ≠ 45 ∧ c.toNat ≠ 43 := by
  simp only [isDigit, Bool.and_eq_true, decide_eq_true_eq] at h
  simp only [isSpace, Bool.or_eq_false_iff, beq_eq_false_iff_ne, Bool.and_eq_false_iff, decide_eq_false_iff_not]
  omega

/-- `strtol` of digits: their value, saturated at `LONG_MAX`. -/
theorem strtol_digits {s : List UInt8} (hs : ∀ c ∈ s, isDigit c = true) :
    strtol s = min (leadingDecimal s : Int) LONG_MAX := by
  cases s with
  | nil => rfl
  | cons c rest =>
    obtain ⟨hspace, hminus, hplus⟩ := isDigit_not_sign (hs c List.mem_cons_self)
    rw [strtol, List.dropWhile_cons_of_neg (by rw [hspace]; decide)]
    dsimp only
    rw [if_neg (fun h => hminus (by rw [h]; rfl)), if_neg (fun h => hplus (by rw [h]; rfl))]

/-- `atoi` reads back the decimal text of a number that fits in an `int`. -/
theorem atoi_decimalString {n : Nat} (hn : n < 2 ^ 31) : atoi (decimalString n) = n := by
  have hlead : leadingDecimal (decimalString n) = n := by
    rw [leadingDecimal, List.takeWhile_eq_self_iff.mpr (decimalString_digits n), decimalValue_decimalString,
      Option.getD_some]
  have hmin : min (n : Int) LONG_MAX = n := Int.min_eq_left (by rw [LONG_MAX]; omega)
  rw [atoi, strtol_digits (decimalString_digits n), hlead, hmin,
    SignedWord.wrap_of_inRange (by decide) ⟨by omega, by omega⟩]

/-- A dynamic list reads its offset word at its head, its length word at the offset, and the words after it. -/
theorem abiOut_list_at {param : ParameterABI} {ws : List WordValue} (hp : AbiParam param (.list ws))
    (hv : ∀ w ∈ ws, w.Faithful) {L pre post front back : List UInt8} {offset : Nat} (hL : L.length < 2 ^ 16)
    (hhead : L = pre ++ toBigEndian offset 32 ++ post)
    (htail : L = front ++ (toBigEndian ws.length 32 ++ (ws.map WordValue.bytes32).flatten) ++ back)
    (hfront : front.length = offset) :
    param.abiOut (toHex L) (2 * pre.length) =
      ⟨true, 2 * pre.length + HEX_INSTRUCTION_SIZE, ws.map WordValue.text, .Ok⟩ := by
  obtain ⟨hdyn, hlist, hbytes, htypes⟩ := hp
  have hsize := congrArg List.length htail
  simp only [List.length_append, toBigEndian_length, length_flatten_bytes32] at hsize
  have hoffset : abiOutBasic .abi_uint (toHex L) (2 * pre.length) = .ok (some (decimalString offset)) := by
    have hword := (abiOutBasic_wordHex (toHex pre) (toHex post) offset).1
    rw [toHex_length, Nat.mod_eq_of_lt (by omega)] at hword
    rw [hhead, toHex_append, toHex_append, ← wordHex, hword]
  -- the offset and the length go through `atoi` and `size_t` unchanged, far below the top of an `int`
  have hpos : toSizeT (SignedWord.wrap 32 (atoi (decimalString offset) * 2)) = offset * 2 := by
    rw [atoi_decimalString (by omega), SignedWord.wrap_of_inRange (by decide) ⟨by omega, by omega⟩, toSizeT]
    omega
  have hcount : toSizeT (atoi (decimalString ws.length)) = ws.length := by
    rw [atoi_decimalString (by omega), toSizeT_natCast (by omega)]
  have hlength : abiOutBasic .abi_uint (toHex L) (offset * 2) = .ok (some (decimalString ws.length)) := by
    have hword := (abiOutBasic_wordHex (toHex front) (toHex ((ws.map WordValue.bytes32).flatten ++ back)) ws.length).1
    rw [toHex_length, hfront, Nat.mod_eq_of_lt (by omega)] at hword
    have hdata : toHex L = toHex front ++ wordHex ws.length ++ toHex ((ws.map WordValue.bytes32).flatten ++ back) := by
      rw [htail]
      simp only [wordHex, toHex_append, List.append_assoc]
    rw [hdata, Nat.mul_comm, hword]
  -- the elements, read as a static list would be after the length word
  have helements : abiOutList param.decodeType.type (toHex L) ws.length 0 (offset * 2 + HEX_INSTRUCTION_SIZE) [] =
      ⟨true, offset * 2 + HEX_INSTRUCTION_SIZE + HEX_INSTRUCTION_SIZE * ws.length, ws.map WordValue.text, .Ok⟩ := by
    cases ws with
    | nil => rfl
    | cons w ws =>
      have hstring : param.decodeType.type ≠ .abi_string :=
        htypes w List.mem_cons_self ▸ w.abiType_ne_string
      have hread := abiOutBasics_words (fun x hx => ⟨htypes x hx, hv x hx⟩) (toHex front ++ wordHex (w :: ws).length)
        (toHex back) []
      rw [List.length_append, toHex_length, wordHex_length, hfront, Nat.mul_comm, List.nil_append] at hread
      rw [abiOutList_eq_abiOutBasics hbytes hstring, ← hread, htail]
      simp only [toHex_append, wordHex, List.append_assoc]
  simp only [ParameterABI.abiOut, hdyn, hlist, not_true_eq_false, and_false, if_false, and_self, if_true, hoffset,
    hpos, hlength, hcount, helements]

/-- `ParameterABI::abiOut` reads an argument at its head at byte `pre.length`, a dynamic one through the offset of
its tail, and moves past the head. -/
theorem abiOut_value {param : ParameterABI} {v : AbiValue} (hp : AbiParam param v) (hv : v.Faithful)
    {L pre post front back : List UInt8} {offset : Nat} (hL : L.length < 2 ^ 16)
    (hhead : L = pre ++ v.part.head offset ++ post) (htail : L = front ++ v.part.tail ++ back)
    (hfront : front.length = offset) (hle : pre.length ≤ offset) :
    param.abiOut (toHex L) (2 * pre.length) = ⟨true, 2 * pre.length + 2 * v.part.headSize, v.texts, .Ok⟩ := by
  have hk : pre.length ≤ L.length := by
    rw [hhead, List.length_append, List.length_append]
    omega
  cases v with
  | word w =>
    obtain ⟨htype, hdyn, hlist⟩ := hp
    have hws : ∀ x ∈ [w], x.abiType = param.decodeType.type ∧ x.Faithful := by
      intro x hx
      rw [List.mem_singleton.mp hx]
      exact ⟨htype.symm, hv⟩
    have hread := abiOutBasics_words hws (toHex pre) (toHex post) []
    simp only [List.map_cons, List.map_nil, List.flatten_cons, List.flatten_nil, List.append_nil,
      List.length_singleton, List.nil_append, toHex_length, Nat.mul_one] at hread
    have hdata : toHex L = toHex pre ++ toHex w.bytes32 ++ toHex post := by
      rw [hhead]
      simp only [AbiValue.part, Part.head, toHex_append]
    simp only [ParameterABI.abiOut, hdyn, hlist, Bool.false_eq_true, false_and, if_false, not_false_eq_true,
      and_self, if_true, hdata, hread, AbiValue.part, Part.headSize, WordValue.bytes32_length, AbiValue.texts]
    rfl
  | array ws =>
    obtain ⟨hdyn, hlist, hlen, htypes⟩ := hp
    have hread := abiOutBasics_words (fun x hx => ⟨htypes x hx, hv x hx⟩) (toHex pre) (toHex post) []
    rw [toHex_length] at hread
    rw [hhead, toHex_append, toHex_append]
    simp only [ParameterABI.abiOut, hdyn, hlist, Bool.false_eq_true, false_and, if_false, not_false_eq_true,
      not_true_eq_false, and_self, and_false, toSizeT_length hlen, AbiValue.part, Part.head, hread]
    simp only [AbiValue.texts, Part.headSize, length_flatten_bytes32, List.nil_append, HEX_INSTRUCTION_SIZE,
      OutResult.mk.injEq, and_true, true_and]
    omega
  | list ws =>
    rw [abiOut_list_at hp hv hL hhead htail hfront]
    rfl
  | bytes bs =>
    obtain ⟨htype, hdyn, hlist⟩ := hp
    rw [abiOut_bytes_at htype hdyn hlist hk, deserialiseString_stringTail hL hhead htail hfront hle]
    rfl
  | string s =>
    rw [abiOut_string_at hp hk, deserialiseString_stringTail hL hhead htail hfront hle]
    rfl

/-- The decoder's loop reads each output at its head, the heads one after the other from byte `pre.length` and the
tails one after the other from `offset`. -/
theorem abiOutLoop_parts {outputs : List ParameterABI} {vs : List AbiValue} (hp : List.Forall₂ AbiParam outputs vs)
    (hv : ∀ v ∈ vs, v.Faithful) {L : List UInt8} (hL : L.length < 2 ^ 16) :
    ∀ (pre post front back : List UInt8) (offset : Nat), L = pre ++ heads (vs.map AbiValue.part) offset ++ post →
      L = front ++ tails (vs.map AbiValue.part) ++ back → front.length = offset →
      pre.length + headSize (vs.map AbiValue.part) ≤ offset →
      ∀ (ret : Bool) (values : List (List (List UInt8))) (errors : List ErrorType),
        abiOutLoop (toHex L) outputs (2 * pre.length) ret values errors =
          (ret, values ++ vs.map AbiValue.texts, errors ++ List.replicate vs.length .Ok) := by
  induction hp with
  | nil =>
    intro pre post front back offset _ _ _ _ ret values errors
    simp [abiOutLoop]
  | @cons param v outputs vs hpv _ ih =>
    intro pre post front back offset hhead htail hfront hle ret values errors
    rw [List.map_cons, heads] at hhead
    rw [List.map_cons, tails_cons] at htail
    rw [List.map_cons, headSize_cons] at hle
    have hhead1 : L = pre ++ v.part.head offset ++
        (heads (vs.map AbiValue.part) (offset + v.part.tail.length) ++ post) := by
      rw [hhead]
      simp only [List.append_assoc]
    have htail1 : L = front ++ v.part.tail ++ (tails (vs.map AbiValue.part) ++ back) := by
      rw [htail]
      simp only [List.append_assoc]
    have hone := abiOut_value hpv (hv v List.mem_cons_self) hL hhead1 htail1 hfront (by omega)
    -- the rest: the next head after this one, the next tail after this one's tail
    have hrest := ih (fun w hw => hv w (List.mem_cons_of_mem _ hw)) (pre ++ v.part.head offset) post
      (front ++ v.part.tail) back (offset + v.part.tail.length) (by rw [hhead]; simp only [List.append_assoc])
      (by rw [htail]; simp only [List.append_assoc]) (by rw [List.length_append, hfront])
      (by rw [List.length_append, Part.head_length]; omega) (ret && true) (values ++ [v.texts]) (errors ++ [.Ok])
    rw [List.length_append, Part.head_length, Nat.mul_add] at hrest
    rw [abiOutLoop, hone]
    simpa [List.append_assoc, List.replicate_succ] using hrest

/-- Below `2 ^ 16` bytes, `FunctionABI::abiOut` reads the layout of arguments back as their texts. -/
theorem abi_decode_layout {f : FunctionABI} {vs : List AbiValue} (hout : List.Forall₂ AbiParam f.outputs vs)
    (hv : ∀ v ∈ vs, v.Faithful) (hsize : (layout (vs.map AbiValue.part)).length < 2 ^ 16) :
    f.abiOut (toHex (layout (vs.map AbiValue.part))) =
      (true, vs.map AbiValue.texts, List.replicate vs.length .Ok) := by
  have hloop := abiOutLoop_parts hout hv hsize [] (tails (vs.map AbiValue.part))
    (heads (vs.map AbiValue.part) (headSize (vs.map AbiValue.part))) [] (headSize (vs.map AbiValue.part))
    (by rw [layout, List.nil_append]) (by rw [layout, List.append_nil]) (heads_length _ _) (by simp)
    true [] []
  rw [List.length_nil, Nat.mul_zero] at hloop
  rw [FunctionABI.abiOut, hloop, List.nil_append, List.nil_append]

/-- A function of a `uint256`, a `string`, a `uint8[]`, a `bool[2]`, `bytes` and an `address` that returns them. -/
def mixedEcho : FunctionABI :=
  let params : List ParameterABI :=
    [⟨ascii "uint256"⟩, ⟨ascii "string"⟩, ⟨ascii "uint8[]"⟩, ⟨ascii "bool[2]"⟩, ⟨ascii "bytes"⟩, ⟨ascii "address"⟩]
  ⟨params, params, ascii "12345678"⟩

def mixedArgs : List AbiValue :=
  [.word (.scalar (.uint 7)), .string (ascii "abc"), .list [.scalar (.uint 1), .scalar (.uint 2)],
    .array [.scalar (.bool true), .scalar (.bool false)], .bytes [1, 2, 3], .word (.address 1234)]

theorem abi_encode_layout_on_mixed :
    mixedEcho.abiIn U256FromString.standard (mixedArgs.map AbiValue.texts) [] =
      (true, mixedEcho.selector ++ toHex (layout (mixedArgs.map AbiValue.part)),
        List.replicate mixedArgs.length .Ok) :=
  abi_encode_layout U256FromString.standard (by decide) (by decide) []

theorem abi_decode_layout_on_mixed :
    mixedEcho.abiOut (toHex (layout (mixedArgs.map AbiValue.part))) =
      (true, mixedArgs.map AbiValue.texts, List.replicate mixedArgs.length .Ok) :=
  abi_decode_layout (by decide) (by decide) (by decide +kernel)

end ContractAbi
end Wattx
