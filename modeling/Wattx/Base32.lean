import Wattx.BitGroups
import Wattx.NetAddress
/-!
# Base32 — `ConvertBits` regroups a bit string, so `DecodeBase32` inverts `EncodeBase32`

A `ConvertBits` state stands for a bit string: the groups it wrote, then the pending low `bits` of its accumulator.
Each input value appends its `frombits` bits to that string while fewer than `tobits` bits stay pending
(`convertBitsStep_stream`), so the loop's output regroups its input (`foldlM_convertBitsStep`).  With padding the
output is the input's string and fewer than `tobits` zeros; without, the leftover bits must be fewer than
`frombits` and zero, and the output is the input's string less them.  Read through the alphabet and the `=` padding,
this makes `DecodeBase32` the inverse of `EncodeBase32` on every byte string (`decodeBase32_encodeBase32`).
-/
namespace Wattx
namespace Net

open BitGroups

/-- What a `ConvertBits` state stands for: the groups written so far, then the pending low `bits` of `acc`. -/
def ConvertState.stream (tobits : Nat) (st : ConvertState) : List Bool :=
  st.out.flatMap (bitsOf tobits) ++ bitsOf st.bits st.acc

/-- The invariant of the `ConvertBits` loop: fewer than `tobits` bits pending, every group written below `2 ^ tobits`. -/
structure ConvertState.Inv (tobits : Nat) (st : ConvertState) : Prop where
  bits_lt : st.bits < tobits
  out_lt : ∀ x ∈ st.out, x < 2 ^ tobits

/-- **One value of `ConvertBits`**: a `frombits`-bit value keeps the invariant and appends its bits to the string. -/
theorem convertBitsStep_stream {f t : Nat} {st : ConvertState} {v : Nat} (hv : v < 2 ^ f) (hst : st.Inv t) :
    (convertBitsStep f t st v).Inv t ∧ (convertBitsStep f t st v).stream t = st.stream t ++ bitsOf f v := by
  have ht : 0 < t := Nat.lt_of_le_of_lt (Nat.zero_le _) hst.bits_lt
  -- the masked accumulator is the pending bits then `v`, and the mask keeps all `st.bits + f` of them
  have hacc : (st.acc <<< f ||| v) &&& (2 ^ (f + t - 1) - 1) = (st.acc * 2 ^ f + v) % 2 ^ (f + t - 1) := by
    rw [← Nat.shiftLeft_add_eq_or_of_lt hv, Nat.shiftLeft_eq, Nat.and_two_pow_sub_one_eq_mod]
  have hle : st.bits + f ≤ f + t - 1 := by
    have := hst.bits_lt
    omega
  have hpend : bitsOf (st.bits + f) ((st.acc * 2 ^ f + v) % 2 ^ (f + t - 1)) = bitsOf st.bits st.acc ++ bitsOf f v := by
    rw [bitsOf_mod_of_le hle, bitsOf_mul_add hv]
  -- the inner loop writes the top `(st.bits + f) / t` groups and leaves the low `(st.bits + f) % t` bits
  have hregroup := bitsOf_regroup t ((st.bits + f) % t) ((st.acc * 2 ^ f + v) % 2 ^ (f + t - 1)) ((st.bits + f) / t)
  rw [Nat.div_add_mod] at hregroup
  simp only [convertBitsStep, hacc, Nat.shiftRight_eq_div_pow, Nat.and_two_pow_sub_one_eq_mod]
  refine ⟨⟨Nat.mod_lt _ ht, ?_⟩, ?_⟩
  · intro x hx
    rcases List.mem_append.1 hx with hx | hx
    · exact hst.out_lt x hx
    · obtain ⟨j, -, rfl⟩ := List.mem_map.1 hx
      exact Nat.mod_lt _ (Nat.two_pow_pos t)
  · rw [ConvertState.stream, ConvertState.stream, List.flatMap_append, List.append_assoc, hregroup, hpend,
      List.append_assoc]

/-- **The `ConvertBits` loop**: over values of `frombits` bits, the loop never fails, keeps the invariant and appends
the values' bits to the string. -/
theorem foldlM_convertBitsStep {f t : Nat} : ∀ {values : List Int} {st : ConvertState}, st.Inv t →
    (∀ v ∈ values, 0 ≤ v ∧ v.toNat < 2 ^ f) →
    ∃ st', values.foldlM (fun st v => if v < 0 then none else some (convertBitsStep f t st v.toNat)) st = some st' ∧
      st'.Inv t ∧ st'.stream t = st.stream t ++ values.flatMap fun v => bitsOf f v.toNat
  | [], st, hst, _ => ⟨st, rfl, hst, by simp⟩
  | v :: vs, st, hst, hvalues => by
    obtain ⟨hv0, hv⟩ := hvalues v List.mem_cons_self
    obtain ⟨hinv, hstream⟩ := convertBitsStep_stream hv hst
    obtain ⟨st', hrun, hinv', hstream'⟩ :=
      foldlM_convertBitsStep hinv fun w hw => hvalues w (List.mem_cons_of_mem _ hw)
    refine ⟨st', ?_, hinv', ?_⟩
    · rw [List.foldlM_cons, if_neg (Int.not_lt.2 hv0)]
      exact hrun
    · rw [hstream', hstream, List.flatMap_cons, List.append_assoc]

/-- The loop from `ConvertBits`' start, `acc = bits = 0`: its string is the input's. -/
theorem foldlM_convertBitsStep_start {f t : Nat} {values : List Int} (ht : 0 < t)
    (hvalues : ∀ v ∈ values, 0 ≤ v ∧ v.toNat < 2 ^ f) :
    ∃ st, values.foldlM (fun st v => if v < 0 then none else some (convertBitsStep f t st v.toNat)) ⟨0, 0, []⟩ =
      some st ∧ st.Inv t ∧ st.stream t = values.flatMap fun v => bitsOf f v.toNat := by
  have hstart : ConvertState.Inv t ⟨0, 0, []⟩ := ⟨ht, by simp⟩
  obtain ⟨st, hrun, hinv, hstream⟩ := foldlM_convertBitsStep hstart hvalues
  exact ⟨st, hrun, hinv, by rw [hstream]; rfl⟩

/-- The group written for leftover bits: the pending bits, then zeros up to `tobits`. -/
theorem bitsOf_padGroup {t bits : Nat} (acc : Nat) (h : bits ≤ t) :
    bitsOf t ((acc <<< (t - bits)) &&& (2 ^ t - 1)) = bitsOf bits acc ++ List.replicate (t - bits) false := by
  have hsplit := bitsOf_mul_pow (t - bits) acc bits
  rw [Nat.add_sub_cancel' h] at hsplit
  rw [Nat.shiftLeft_eq, Nat.and_two_pow_sub_one_eq_mod, bitsOf_mod, hsplit]

/-- **`ConvertBits` with padding** writes its whole input's string, then fewer than `tobits` zeros. -/
theorem convertBits_pad {f t : Nat} {values : List Int} (ht : 0 < t)
    (hvalues : ∀ v ∈ values, 0 ≤ v ∧ v.toNat < 2 ^ f) :
    ∃ out p, convertBits f t true values = some out ∧ p < t ∧ (∀ x ∈ out, x < 2 ^ t) ∧
      out.flatMap (bitsOf t) = (values.flatMap fun v => bitsOf f v.toNat) ++ List.replicate p false := by
  obtain ⟨st, hrun, hinv, hstream⟩ := foldlM_convertBitsStep_start ht hvalues
  rw [← hstream, ConvertState.stream]
  by_cases hbits : st.bits = 0
  · refine ⟨st.out, 0, by simp [convertBits, hrun, hbits], ht, hinv.out_lt, ?_⟩
    rw [hbits, bitsOf_zero_left, List.replicate_zero, List.append_nil, List.append_nil]
  · -- the leftover bits go out as one more group, zero-filled
    refine ⟨st.out ++ [(st.acc <<< (t - st.bits)) &&& (2 ^ t - 1)], t - st.bits,
      by simp [convertBits, hrun, hbits], by omega, ?_, ?_⟩
    · intro x hx
      rcases List.mem_append.1 hx with hx | hx
      · exact hinv.out_lt x hx
      · rw [List.mem_singleton.1 hx, Nat.and_two_pow_sub_one_eq_mod]
        exact Nat.mod_lt _ (Nat.two_pow_pos t)
    · rw [List.flatMap_append, List.flatMap_singleton, bitsOf_padGroup _ (Nat.le_of_lt hinv.bits_lt),
        List.append_assoc]

/-- **`ConvertBits` without padding** accepts a string of whole groups then fewer than `frombits` zeros, and returns
those groups. -/
theorem convertBits_of_stream {f t p : Nat} {values : List Int} {out : List Nat} (hp : p < f) (hpt : p < t)
    (hvalues : ∀ v ∈ values, 0 ≤ v ∧ v.toNat < 2 ^ f) (hout : ∀ x ∈ out, x < 2 ^ t)
    (h : (values.flatMap fun v => bitsOf f v.toNat) = out.flatMap (bitsOf t) ++ List.replicate p false) :
    convertBits f t false values = some out := by
  have ht : 0 < t := by omega
  obtain ⟨st, hrun, hinv, hstream⟩ := foldlM_convertBitsStep_start ht hvalues
  rw [h, ConvertState.stream] at hstream
  obtain ⟨hgroups, hrest⟩ := flatMap_bitsOf_append_inj (by simpa using hinv.bits_lt) (by simpa using hpt) hstream
  have hbits : st.bits = p := by simpa using congrArg List.length hrest
  -- the leftover bits are zero, so is the group they would make
  have hzero : (st.acc <<< (t - st.bits)) &&& (2 ^ t - 1) = 0 := by
    have hpad := bitsOf_padGroup st.acc (Nat.le_of_lt hinv.bits_lt)
    rw [hrest, hbits, ← List.replicate_add, Nat.add_sub_cancel' (Nat.le_of_lt hpt), ← bitsOf_zero] at hpad
    have hmod := mod_eq_of_bitsOf_eq hpad
    rw [Nat.and_two_pow_sub_one_eq_mod, Nat.mod_mod, Nat.zero_mod] at hmod
    rw [hbits, Nat.and_two_pow_sub_one_eq_mod]
    exact hmod
  have hcheck : ¬(st.bits ≥ f ∨ (st.acc <<< (t - st.bits)) &&& (2 ^ t - 1) ≠ 0) := by
    rw [hzero, hbits]
    omega
  have hout' : st.out = out := eq_of_flatMap_bitsOf_eq ht hinv.out_lt hout hgroups
  simp only [convertBits, hrun, Option.bind_eq_bind, Option.bind_some, Bool.false_eq_true, if_false]
  rw [if_neg hcheck, hout']

/-! ### The base32 text -/

/-- `dropOne` of `DecodeBase32`: a trailing `=` off. -/
def dropPadOne (s : List Char) : List Char := if s.length ≥ 1 ∧ s.getLast? = some '=' then s.dropLast else s

/-- `dropTwo` of `DecodeBase32`: two trailing `=` off. -/
def dropPadTwo (s : List Char) : List Char :=
  if s.length ≥ 2 ∧ s.drop (s.length - 2) = ['=', '='] then s.dropLast.dropLast else s

theorem decodeBase32_eq (str : List Char) : decodeBase32 str = if str.length % 8 ≠ 0 then none
    else (convertBits 5 8 false ((dropPadTwo (dropPadOne (dropPadTwo (dropPadOne str)))).map decode32)).map
      (·.map Nat.toUInt8) := rfl

theorem dropPadOne_replicate (s : List Char) (k : Nat) :
    dropPadOne (s ++ List.replicate (k + 1) '=') = s ++ List.replicate k '=' := by
  have hlen : (s ++ List.replicate k '=' ++ ['=']).length ≥ 1 := by
    simp only [List.length_append, List.length_singleton]
    omega
  rw [List.replicate_succ', ← List.append_assoc, dropPadOne, if_pos ⟨hlen, List.getLast?_concat⟩,
    List.dropLast_concat]

theorem dropPadTwo_replicate (s : List Char) (k : Nat) :
    dropPadTwo (s ++ List.replicate (k + 2) '=') = s ++ List.replicate k '=' := by
  have hpad : s ++ List.replicate (k + 2) '=' = s ++ List.replicate k '=' ++ ['=', '='] := by
    rw [List.append_assoc, List.replicate_add]
    rfl
  have hdrop : (s ++ List.replicate k '=' ++ ['=', '=']).drop
      ((s ++ List.replicate k '=' ++ ['=', '=']).length - 2) = ['=', '='] := by
    rw [List.length_append, List.length_cons, List.length_singleton, Nat.add_sub_cancel, List.drop_left]
  have hlen : (s ++ List.replicate k '=' ++ ['=', '=']).length ≥ 2 := by
    simp only [List.length_append, List.length_cons]
    omega
  rw [hpad, dropPadTwo, if_pos ⟨hlen, hdrop⟩, List.dropLast_append_of_ne_nil (by simp),
    List.dropLast_append_of_ne_nil (by simp)]
  simp

theorem dropPadOne_of_not_mem {s : List Char} (hs : '=' ∉ s) : dropPadOne s = s :=
  if_neg fun h => hs (List.mem_of_getLast? h.2)

theorem dropPadTwo_of_not_mem {s : List Char} (hs : '=' ∉ s) : dropPadTwo s = s :=
  if_neg fun h => hs (List.mem_of_mem_drop (h.2 ▸ List.mem_cons_self))

/-- The four strips of `DecodeBase32` take off the 0, 1, 3, 4 or 6 `=` that `EncodeBase32` writes. -/
theorem dropPads_replicate {s : List Char} (hs : '=' ∉ s) {k : Nat}
    (hk : k = 0 ∨ k = 1 ∨ k = 3 ∨ k = 4 ∨ k = 6) :
    dropPadTwo (dropPadOne (dropPadTwo (dropPadOne (s ++ List.replicate k '=')))) = s := by
  have hnil : s ++ List.replicate 0 '=' = s := List.append_nil s
  rcases hk with rfl | rfl | rfl | rfl | rfl
  · rw [hnil, dropPadOne_of_not_mem hs, dropPadTwo_of_not_mem hs, dropPadOne_of_not_mem hs,
      dropPadTwo_of_not_mem hs]
  · rw [dropPadOne_replicate, hnil, dropPadTwo_of_not_mem hs, dropPadOne_of_not_mem hs, dropPadTwo_of_not_mem hs]
  · rw [dropPadOne_replicate, dropPadTwo_replicate, hnil, dropPadOne_of_not_mem hs, dropPadTwo_of_not_mem hs]
  · rw [dropPadOne_replicate, dropPadTwo_replicate, dropPadOne_replicate, hnil, dropPadTwo_of_not_mem hs]
  · rw [dropPadOne_replicate, dropPadTwo_replicate, dropPadOne_replicate, dropPadTwo_replicate, hnil]

/-- `decode32_table` reads each alphabet character back as its index. -/
theorem decode32_getD_pbase32 : ∀ v < 32, decode32 (pbase32.getD v 'a') = v := by
  decide +kernel

theorem eq_not_mem_pbase32 : '=' ∉ pbase32 := by
  decide +kernel

/-- `DecodeBase32` of alphabet digits and the padding `EncodeBase32` writes: `ConvertBits<5, 8, false>` of the
digits' values. -/
theorem decodeBase32_digits {ys : List Nat} (hys : ∀ y ∈ ys, y < 32) {k : Nat}
    (hk : k = 0 ∨ k = 1 ∨ k = 3 ∨ k = 4 ∨ k = 6) (hlen : (ys.length + k) % 8 = 0) :
    decodeBase32 (ys.map (fun v => pbase32.getD v 'a') ++ List.replicate k '=') =
      (convertBits 5 8 false (ys.map fun y : Nat => (y : Int))).map (·.map Nat.toUInt8) := by
  have hnoeq : '=' ∉ ys.map fun v => pbase32.getD v 'a' := fun h => by
    obtain ⟨v, -, hv⟩ := List.mem_map.1 h
    exact eq_not_mem_pbase32 (hv ▸ getD_pbase32_mem v)
  have hvalues : (ys.map fun v => pbase32.getD v 'a').map decode32 = ys.map fun y : Nat => (y : Int) := by
    rw [List.map_map]
    exact List.map_congr_left fun y hy => decode32_getD_pbase32 y (hys y hy)
  have hlen' : ¬(ys.map (fun v => pbase32.getD v 'a') ++ List.replicate k '=').length % 8 ≠ 0 := by
    rw [List.length_append, List.length_map, List.length_replicate, hlen]
    exact fun h => h rfl
  rw [decodeBase32_eq, if_neg hlen', dropPads_replicate hnoeq hk, hvalues]

/-- The groups `EncodeBase32` writes for bytes: five bits each, the bytes' bits then fewer than five zeros. -/
theorem convertBits_encodeBase32 (input : List UInt8) :
    ∃ ys p, convertBits 8 5 true (input.map fun b => (b.toNat : Int)) = some ys ∧ p < 5 ∧ (∀ y ∈ ys, y < 32) ∧
      ys.flatMap (bitsOf 5) = (input.map UInt8.toNat).flatMap (bitsOf 8) ++ List.replicate p false := by
  have hvalues : ∀ v ∈ input.map (fun b => (b.toNat : Int)), 0 ≤ v ∧ v.toNat < 2 ^ 8 := by
    intro v hv
    obtain ⟨b, -, rfl⟩ := List.mem_map.1 hv
    exact ⟨Int.natCast_nonneg _, by rw [Int.toNat_natCast]; exact UInt8.toNat_lt b⟩
  obtain ⟨ys, p, hconv, hp, hys, hbits⟩ := convertBits_pad (show 0 < 5 by decide) hvalues
  refine ⟨ys, p, hconv, hp, hys, ?_⟩
  rw [hbits, List.flatMap_map, List.flatMap_map]
  simp only [Int.toNat_natCast]

/-- **`DecodeBase32` inverts `EncodeBase32`** on every byte string. -/
theorem decodeBase32_encodeBase32 (input : List UInt8) : decodeBase32 (encodeBase32 input true) = some input := by
  obtain ⟨ys, p, hconv, hp, hys, hbits⟩ := convertBits_encodeBase32 input
  -- five bits a digit are eight a byte and fewer than five of padding, so 0, 1, 3, 4 or 6 `=` follow
  have hlen : 5 * ys.length = 8 * input.length + p := by
    have := congrArg List.length hbits
    simpa only [length_flatMap_bitsOf, List.length_append, List.length_replicate, List.length_map] using this
  have hk : (8 - ys.length % 8) % 8 = 0 ∨ (8 - ys.length % 8) % 8 = 1 ∨ (8 - ys.length % 8) % 8 = 3 ∨
      (8 - ys.length % 8) % 8 = 4 ∨ (8 - ys.length % 8) % 8 = 6 := by
    omega
  have henc : encodeBase32 input true =
      ys.map (fun v => pbase32.getD v 'a') ++ List.replicate ((8 - ys.length % 8) % 8) '=' := by
    simp only [encodeBase32, hconv, Option.getD_some, if_true, List.length_map]
  -- the bytes come back from the digits' bits, the padding bits dropped
  have hdecode : convertBits 5 8 false (ys.map fun y : Nat => (y : Int)) = some (input.map UInt8.toNat) := by
    refine convertBits_of_stream hp (by omega) ?_ ?_ ?_
    · intro v hv
      obtain ⟨y, hy, rfl⟩ := List.mem_map.1 hv
      exact ⟨Int.natCast_nonneg _, by rw [Int.toNat_natCast]; exact hys y hy⟩
    · intro x hx
      obtain ⟨b, -, rfl⟩ := List.mem_map.1 hx
      exact UInt8.toNat_lt b
    · rw [List.flatMap_map]
      simpa only [Int.toNat_natCast] using hbits
  rw [henc, decodeBase32_digits hys hk (by omega), hdecode, Option.map_some, List.map_map]
  congr 1
  exact List.map_id'' (fun b => UInt8.ofNat_toNat) input

/-! ### Tor and I2P names -/

theorem encodeBase32_true (input : List UInt8) : encodeBase32 input true =
    encodeBase32 input false ++ List.replicate ((8 - (encodeBase32 input false).length % 8) % 8) '=' :=
  rfl

/-- The unpadded text has a digit for each five of the bytes' bits, the last digit short of fewer than five. -/
theorem length_encodeBase32 (input : List UInt8) :
    ∃ p < 5, 5 * (encodeBase32 input false).length = 8 * input.length + p := by
  obtain ⟨ys, p, hconv, hp, -, hbits⟩ := convertBits_encodeBase32 input
  have hlen := congrArg List.length hbits
  simp only [length_flatMap_bitsOf, List.length_append, List.length_replicate, List.length_map] at hlen
  refine ⟨p, hp, ?_⟩
  simpa only [encodeBase32, hconv, Option.getD_some, Bool.false_eq_true, if_false, List.length_map] using hlen

section Names

variable (SHA3_256 : List UInt8 → List UInt8)

/-- **`SetTor` reads a Tor v3 name back**: the base32 of a 32-byte key, its checksum and version 3, then `.onion`,
when the digest holds the two checksum bytes. -/
theorem setTor_onionToString {addr : List UInt8} (hlen : addr.length = ADDR_TORV3_SIZE)
    (hsha : ∀ x, 2 ≤ (SHA3_256 x).length) :
    setTor SHA3_256 (onionToString SHA3_256 addr) = some { m_net := .NET_ONION, m_addr := addr } := by
  have hcks : (torChecksum SHA3_256 addr).length = 2 := by
    rw [torChecksum, List.length_take]
    exact Nat.min_eq_left (hsha _)
  obtain ⟨enc, henc⟩ : ∃ enc, encodeBase32 (addr ++ torChecksum SHA3_256 addr ++ [3]) true = enc := ⟨_, rfl⟩
  have hdecode := decodeBase32_encodeBase32 (addr ++ torChecksum SHA3_256 addr ++ [3])
  rw [henc] at hdecode
  -- the digits are not empty: no digits decode to no bytes
  have hne : enc ≠ [] := by
    rintro rfl
    have hnil : decodeBase32 [] = some [] := rfl
    rw [hnil, Option.some.injEq] at hdecode
    simp at hdecode
  have hlen6 : (enc ++ ".onion".toList).length - 6 = enc.length := by simp
  have hsuffix : ¬((enc ++ ".onion".toList).length ≤ 6 ∨
      (enc ++ ".onion".toList).drop ((enc ++ ".onion".toList).length - 6) ≠ ".onion".toList) := by
    rw [hlen6, List.drop_left]
    simpa using hne
  -- the decoded bytes are the key, the checksum and the version
  have htotal : (addr ++ torChecksum SHA3_256 addr ++ [3]).length = torv3_TOTAL_LEN := by
    simp [hlen, hcks, torv3_TOTAL_LEN]
  have hkey : (addr ++ torChecksum SHA3_256 addr ++ [3]).take ADDR_TORV3_SIZE = addr := by
    rw [List.append_assoc, List.take_left' hlen]
  have hsum : ((addr ++ torChecksum SHA3_256 addr ++ [3]).drop ADDR_TORV3_SIZE).take 2 = torChecksum SHA3_256 addr := by
    rw [List.append_assoc, List.drop_left' hlen, List.take_left' hcks]
  have hversion : (addr ++ torChecksum SHA3_256 addr ++ [3]).drop (ADDR_TORV3_SIZE + 2) = [3] := by
    rw [List.drop_left' (by rw [List.length_append, hlen, hcks])]
  rw [onionToString, henc, setTor, if_neg hsuffix, hlen6, List.take_left, hdecode]
  simp only [htotal, hkey, hsum, hversion, if_true]
  simp

/-- **`SetI2P` reads an I2P name back**: the 52 base32 digits of a 32-byte hash, then `.b32.i2p`. -/
theorem setI2P_encodeBase32 {addr : List UInt8} (hlen : addr.length = ADDR_I2P_SIZE) :
    setI2P (encodeBase32 addr false ++ ".b32.i2p".toList) = some { m_net := .NET_I2P, m_addr := addr } := by
  have hdigits : (encodeBase32 addr false).length = 52 := by
    obtain ⟨p, hp, hbits⟩ := length_encodeBase32 addr
    rw [hlen, ADDR_I2P_SIZE] at hbits
    omega
  -- the four `=` setI2P appends are the padding of 52 digits
  have hpad : encodeBase32 addr false ++ "====".toList = encodeBase32 addr true := by
    rw [encodeBase32_true, hdigits]
    rfl
  have hname : ¬((encodeBase32 addr false ++ ".b32.i2p".toList).length ≠ 52 + 8 ∨
      toLower ((encodeBase32 addr false ++ ".b32.i2p".toList).drop 52) ≠ ".b32.i2p".toList) := by
    rw [List.drop_left' hdigits]
    simp only [List.length_append, hdigits]
    decide
  rw [setI2P, if_neg hname, List.take_left' hdigits, hpad, decodeBase32_encodeBase32]
  exact if_pos hlen

/-- No character of a base32 name, with a suffix that holds none, is a colon, `[` or NUL. -/
theorem forall_mem_encodeBase32_append {suffix : List Char} (hsuffix : ∀ c ∈ suffix, c ≠ ':' ∧ c ≠ '[' ∧ c ≠ '\x00')
    (input : List UInt8) (pad : Bool) : ∀ c ∈ encodeBase32 input pad ++ suffix, c ≠ ':' ∧ c ≠ '[' ∧ c ≠ '\x00' := by
  have hdigit : ∀ c ∈ pbase32, c ≠ ':' ∧ c ≠ '[' ∧ c ≠ '\x00' := forall_mem_of_all (by decide)
  rw [List.forall_mem_append]
  exact ⟨forall_mem_encodeBase32 hdigit (by decide) input pad, hsuffix⟩

theorem forall_mem_onionToString (addr : List UInt8) :
    ∀ c ∈ onionToString SHA3_256 addr, c ≠ ':' ∧ c ≠ '[' ∧ c ≠ '\x00' :=
  forall_mem_encodeBase32_append (forall_mem_of_all (by decide)) _ true

theorem forall_mem_i2pText (addr : List UInt8) :
    ∀ c ∈ encodeBase32 addr false ++ ".b32.i2p".toList, c ≠ ':' ∧ c ≠ '[' ∧ c ≠ '\x00' :=
  forall_mem_encodeBase32_append (forall_mem_of_all (by decide)) addr false

theorem setSpecial_onionToString {addr : List UInt8} (hlen : addr.length = ADDR_TORV3_SIZE)
    (hsha : ∀ x, 2 ≤ (SHA3_256 x).length) :
    setSpecial SHA3_256 (onionToString SHA3_256 addr) = some { m_net := .NET_ONION, m_addr := addr } := by
  have hnul : containsNoNUL (onionToString SHA3_256 addr) = true :=
    containsNoNUL_iff.2 fun c hc => (forall_mem_onionToString SHA3_256 addr c hc).2.2
  rw [setSpecial, hnul, setTor_onionToString SHA3_256 hlen hsha]
  rfl

/-- An I2P name is not a Tor name: it ends in `32.i2p`, not `.onion`. -/
theorem setSpecial_i2p {addr : List UInt8} (hlen : addr.length = ADDR_I2P_SIZE) :
    setSpecial SHA3_256 (encodeBase32 addr false ++ ".b32.i2p".toList) = some { m_net := .NET_I2P, m_addr := addr } := by
  have hnul : containsNoNUL (encodeBase32 addr false ++ ".b32.i2p".toList) = true :=
    containsNoNUL_iff.2 fun c hc => (forall_mem_i2pText addr c hc).2.2
  have htor : setTor SHA3_256 (encodeBase32 addr false ++ ".b32.i2p".toList) = none := by
    apply setTor_eq_none
    have h8 : ".b32.i2p".toList.length = 8 := rfl
    rw [List.length_append, h8, show (encodeBase32 addr false).length + 8 - 6 = (encodeBase32 addr false).length + 2
      by omega, List.drop_length_add_append]
    decide
  rw [setSpecial, hnul, htor, setI2P_encodeBase32 hlen]
  rfl

variable (dns_lookup_function : DNSLookupFn)

/-- A Tor v3 service comes back from its text as itself, whatever the resolver. -/
theorem lookupNumeric_onion {s : CService} (hnet : s.m_net = .NET_ONION) (hlen : s.m_addr.length = ADDR_TORV3_SIZE)
    (hscope : s.m_scope_id = 0) (hport : s.port < 2 ^ 16) (hsha : ∀ x, 2 ≤ (SHA3_256 x).length) (portDefault : Nat) :
    lookupNumeric SHA3_256 dns_lookup_function (s.toStringAddrPort SHA3_256) portDefault = s := by
  rw [CService.toStringAddrPort_of_onion SHA3_256 hnet, lookupNumeric_named SHA3_256 dns_lookup_function
    (forall_mem_onionToString SHA3_256 s.m_addr) hport (setSpecial_onionToString SHA3_256 hlen hsha)]
  exact CService.mk_parts hnet hscope

/-- An I2P service comes back from its text as itself, whatever the resolver. -/
theorem lookupNumeric_i2p {s : CService} (hnet : s.m_net = .NET_I2P) (hlen : s.m_addr.length = ADDR_I2P_SIZE)
    (hscope : s.m_scope_id = 0) (hport : s.port < 2 ^ 16) (portDefault : Nat) :
    lookupNumeric SHA3_256 dns_lookup_function (s.toStringAddrPort SHA3_256) portDefault = s := by
  rw [CService.toStringAddrPort_of_i2p SHA3_256 hnet, lookupNumeric_named SHA3_256 dns_lookup_function
    (forall_mem_i2pText s.m_addr) hport (setSpecial_i2p SHA3_256 hlen)]
  exact CService.mk_parts hnet hscope

end Names

end Net
end Wattx
