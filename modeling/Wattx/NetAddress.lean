import Mathlib.Algebra.Group.Nat.Defs
import Mathlib.Data.List.Basic
/-!
# NetAddress — network addresses as text (`netaddress.cpp`, `netbase.cpp`, `util/strencodings.cpp`)

A `CNetAddr` is a network, its address bytes and, for IPv6, a scope id; a `CService` adds a port.
`ToStringAddrPort` writes one as text: IPv4 dotted, IPv6 in RFC 5952's compressed hextets with `%scope`, Tor v3 as
the base32 of its key, checksum and version with `.onion`, I2P as the base32 of its hash with `.b32.i2p`, and CJDNS
as IPv6 text; then the port after a colon, the IPv6 and CJDNS text in brackets.  `LookupNumeric` reads such text
back: `SplitHostPort` takes the port off, `SetSpecial` decodes Tor and I2P names, and every other host goes to the
system resolver, here the `DNSLookupFn` the source itself passes along, which returns IPv4 and IPv6 addresses only.

Texts are ASCII `std::string`s, modelled as `List Char`.  The Tor checksum's SHA3-256 is a parameter.
-/
namespace Wattx
namespace Net

/-- `enum Network`, less `NET_UNROUTABLE` and `NET_MAX`, which `m_net` never holds. -/
inductive Network where
  | NET_IPV4
  | NET_IPV6
  | NET_ONION
  | NET_I2P
  | NET_CJDNS
  | NET_INTERNAL
  deriving DecidableEq, Repr

def IPV4_IN_IPV6_PREFIX : List UInt8 := [0x00, 0x00, 0x00, 0x00, 0x00, 0x00, 0x00, 0x00, 0x00, 0x00, 0xFF, 0xFF]
def TORV2_IN_IPV6_PREFIX : List UInt8 := [0xFD, 0x87, 0xD8, 0x7E, 0xEB, 0x43]
def INTERNAL_IN_IPV6_PREFIX : List UInt8 := [0xFD, 0x6B, 0x88, 0xC0, 0x87, 0x24]
def CJDNS_PREFIX : UInt8 := 0xFC
def ADDR_IPV6_SIZE : Nat := 16
def ADDR_TORV3_SIZE : Nat := 32
def ADDR_I2P_SIZE : Nat := 32

/-- `CNetAddr`, with the defaults of its constructor: `::`, the unspecified IPv6 address. -/
structure CNetAddr where
  m_addr : List UInt8 := List.replicate ADDR_IPV6_SIZE 0
  m_net : Network := .NET_IPV6
  m_scope_id : Nat := 0
  deriving DecidableEq, Repr

/-- `CService`: an address and a `uint16_t` port, `[::]:0` by default. -/
structure CService extends CNetAddr where
  port : Nat := 0
  deriving DecidableEq, Repr

/-- `operator==` of `CService`: the network, the bytes and the port; the scope id is not compared. -/
def CService.equals (a b : CService) : Bool := a.m_net == b.m_net && a.m_addr == b.m_addr && a.port == b.port

/-- A service is its bytes and port with its own network and scope. -/
theorem CService.mk_parts {s : CService} {net : Network} {scope : Nat} (hnet : s.m_net = net)
    (hscope : s.m_scope_id = scope) :
    ({ m_net := net, m_addr := s.m_addr, m_scope_id := scope, port := s.port } : CService) = s := by
  subst hnet hscope
  rfl

namespace CNetAddr

def isInternal (a : CNetAddr) : Bool := a.m_net == .NET_INTERNAL

def hasCJDNSPrefix (a : CNetAddr) : Bool := a.m_addr.head? == some CJDNS_PREFIX

/-- `IsRFC3849`: IPv6 documentation addresses, `2001:0DB8::/32`. -/
def isRFC3849 (a : CNetAddr) : Bool := a.m_net == .NET_IPV6 && a.m_addr.take 4 == [0x20, 0x01, 0x0D, 0xB8]

/-- `ReadBE32` of the first four bytes. -/
def readBE32 (a : List UInt8) : Nat := (a.take 4).foldl (fun n b => 256 * n + b.toNat) 0

def isValid (a : CNetAddr) : Bool :=
  -- the unspecified IPv6 address `::`
  if a.m_net == .NET_IPV6 && a.m_addr == List.replicate 16 0 then false
  else if a.m_net == .NET_CJDNS && !a.hasCJDNSPrefix then false
  else if a.isRFC3849 then false
  else if a.isInternal then false
  else if a.m_net == .NET_IPV4 && (readBE32 a.m_addr == 0 || readBE32 a.m_addr == 0xFFFFFFFF) then false
  else true

/-- `SetLegacyIPv6` on a default address: IPv4 and internal addresses embedded in IPv6 take their own network, and an
embedded Tor v2 address becomes `::`. -/
def setLegacyIPv6 (ipv6 : List UInt8) : CNetAddr :=
  if ipv6.take 12 == IPV4_IN_IPV6_PREFIX then { m_net := .NET_IPV4, m_addr := ipv6.drop 12 }
  else if ipv6.take 6 == TORV2_IN_IPV6_PREFIX then { m_net := .NET_IPV6, m_addr := List.replicate ADDR_IPV6_SIZE 0 }
  else if ipv6.take 6 == INTERNAL_IN_IPV6_PREFIX then { m_net := .NET_INTERNAL, m_addr := ipv6.drop 6 }
  else { m_net := .NET_IPV6, m_addr := ipv6 }

theorem hasCJDNSPrefix_of_isValid {a : CNetAddr} (hnet : a.m_net = .NET_CJDNS) (hvalid : a.isValid = true) :
    a.m_addr.head? = some CJDNS_PREFIX := by
  simp [isValid, hasCJDNSPrefix, hnet] at hvalid
  exact hvalid.1

/-- IPv6 bytes that start with `fc` are a valid address, whatever the scope. -/
theorem isValid_ipv6_of_cjdns {a : List UInt8} {scope : Nat} (h : a.head? = some CJDNS_PREFIX) :
    isValid { m_net := .NET_IPV6, m_addr := a, m_scope_id := scope } = true := by
  cases a with
  | nil => simp at h
  | cons b t =>
    obtain rfl : b = CJDNS_PREFIX := by simpa using h
    simp [isValid, isRFC3849, isInternal, List.replicate_succ, CJDNS_PREFIX]

/-- Tor and I2P addresses are always valid: every check of `IsValid` is for another network. -/
theorem isValid_of_onion_or_i2p {a : CNetAddr} (h : a.m_net = .NET_ONION ∨ a.m_net = .NET_I2P) : a.isValid = true := by
  rcases h with h | h <;> simp [isValid, isRFC3849, isInternal, h]

/-- Bytes that start with `fc` are IPv6 as they are: no embedded prefix starts with it. -/
theorem setLegacyIPv6_of_cjdns {ipv6 : List UInt8} (h : ipv6.head? = some CJDNS_PREFIX) :
    setLegacyIPv6 ipv6 = { m_net := .NET_IPV6, m_addr := ipv6 } := by
  cases ipv6 with
  | nil => simp at h
  | cons b t =>
    obtain rfl : b = CJDNS_PREFIX := by simpa using h
    simp [setLegacyIPv6, IPV4_IN_IPV6_PREFIX, TORV2_IN_IPV6_PREFIX, INTERNAL_IN_IPV6_PREFIX, CJDNS_PREFIX]

/-- `CNetAddr(const in6_addr&, uint32_t scope)`. -/
def ofIn6Addr (ipv6Addr : List UInt8) (scope : Nat) : CNetAddr := { setLegacyIPv6 ipv6Addr with m_scope_id := scope }

/-- `CNetAddr(const in_addr&)`. -/
def ofInAddr (ipv4Addr : List UInt8) : CNetAddr := { m_net := .NET_IPV4, m_addr := ipv4Addr }

end CNetAddr

/-! ### Base32 -/

/-- The state of `ConvertBits`: the accumulator and how many of its low bits are pending, and the output. -/
structure ConvertState where
  acc : Nat
  bits : Nat
  out : List Nat

/-- One input value of `ConvertBits`: shift it into the accumulator, then the inner `while (bits >= tobits)` emits
the `bits / tobits` complete groups, highest first. -/
def convertBitsStep (frombits tobits : Nat) (st : ConvertState) (v : Nat) : ConvertState :=
  let acc := (st.acc <<< frombits ||| v) &&& (2 ^ (frombits + tobits - 1) - 1)
  let bits := st.bits + frombits
  { acc, bits := bits % tobits,
    out := st.out ++ (List.range (bits / tobits)).map fun j => (acc >>> (bits - tobits * (j + 1))) &&& (2 ^ tobits - 1) }

/-- `ConvertBits<frombits, tobits, pad>` over the values `infn` returns: `none` where it returns `false`, at a
negative value or, without padding, at leftover bits that are too many or not zero. -/
def convertBits (frombits tobits : Nat) (pad : Bool) (values : List Int) : Option (List Nat) := do
  let st ← values.foldlM (fun st v => if v < 0 then none else some (convertBitsStep frombits tobits st v.toNat))
    ⟨0, 0, []⟩
  if pad then
    some (if st.bits ≠ 0 then st.out ++ [(st.acc <<< (tobits - st.bits)) &&& (2 ^ tobits - 1)] else st.out)
  else if st.bits ≥ frombits ∨ (st.acc <<< (tobits - st.bits)) &&& (2 ^ tobits - 1) ≠ 0 then none
  else some st.out

def pbase32 : List Char := "abcdefghijklmnopqrstuvwxyz234567".toList

def encodeBase32 (input : List UInt8) (pad : Bool) : List Char :=
  let str := ((convertBits 8 5 true (input.map fun b => (b.toNat : Int))).getD []).map fun v => pbase32.getD v 'a'
  if pad then str ++ List.replicate ((8 - str.length % 8) % 8) '=' else str

/-- `decode32_table`: the value of a base32 digit, either case, and `-1` for any other character. -/
def decode32 (c : Char) : Int :=
  if 'A' ≤ c ∧ c ≤ 'Z' then c.toNat - 'A'.toNat
  else if 'a' ≤ c ∧ c ≤ 'z' then c.toNat - 'a'.toNat
  else if '2' ≤ c ∧ c ≤ '7' then c.toNat - '2'.toNat + 26
  else -1

def decodeBase32 (str : List Char) : Option (List UInt8) :=
  if str.length % 8 ≠ 0 then none
  else
    -- 1, 3, 4, or 6 padding `=` suffix characters are permitted
    let dropOne (s : List Char) := if s.length ≥ 1 ∧ s.getLast? = some '=' then s.dropLast else s
    let dropTwo (s : List Char) := if s.length ≥ 2 ∧ s.drop (s.length - 2) = ['=', '='] then s.dropLast.dropLast else s
    let str := dropTwo (dropOne (dropTwo (dropOne str)))
    (convertBits 5 8 false (str.map decode32)).map (·.map Nat.toUInt8)

/-! ### Addresses as text -/

def ipv4ToString (a : List UInt8) : List Char :=
  Nat.toDigits 10 (a.getD 0 0).toNat ++ '.' :: Nat.toDigits 10 (a.getD 1 0).toNat ++ '.' ::
    Nat.toDigits 10 (a.getD 2 0).toNat ++ '.' :: Nat.toDigits 10 (a.getD 3 0).toNat

/-- The eight big-endian 16-bit groups of an IPv6 address. -/
def ipv6Groups (a : List UInt8) : List Nat :=
  (List.range 8).map fun i => (a.getD (2 * i) 0).toNat * 256 + (a.getD (2 * i + 1) 0).toNat

structure ZeroSpan where
  start_index : Nat := 0
  len : Nat := 0

/-- The first loop of `IPv6ToString`: the longest run of zero groups, the first of several equal ones. -/
def longestZeroSpan (groups : List Nat) : ZeroSpan :=
  ((List.range groups.length).foldl (fun (spans : ZeroSpan × ZeroSpan) i =>
    let (longest, current) := spans
    if groups.getD i 0 ≠ 0 then (longest, ⟨i + 1, 0⟩)
    else
      let current := { current with len := current.len + 1 }
      (if current.len > longest.len then current else longest, current)) (⟨0, 0⟩, ⟨0, 0⟩)).1

/-- `IPv6ToString`: the groups in lower-case hex, the longest run of at least two zero groups written `::`, then
`%scope_id` when it is not zero. -/
def ipv6ToString (a : List UInt8) (scope_id : Nat) : List Char :=
  let groups := ipv6Groups a
  let longest := longestZeroSpan groups
  let r := (List.range groups.length).foldl (fun r i =>
    if longest.len ≥ 2 ∧ longest.start_index ≤ i ∧ i < longest.start_index + longest.len then
      if i = longest.start_index then r ++ [':', ':'] else r
    else r ++ (if r ≠ [] ∧ r.getLast? ≠ some ':' then [':'] else []) ++ Nat.toDigits 16 (groups.getD i 0)) []
  if scope_id ≠ 0 then r ++ '%' :: Nat.toDigits 10 scope_id else r

/-! ### What the texts are made of -/

/-- A base32 digit is an alphabet character, also past the alphabet, where the default `'a'` stands. -/
theorem getD_pbase32_mem (v : Nat) : pbase32.getD v 'a' ∈ pbase32 := by
  rw [List.getD_eq_getElem?_getD]
  by_cases hv : v < pbase32.length
  · rw [List.getElem?_eq_getElem hv, Option.getD_some]
    exact List.getElem_mem hv
  · rw [List.getElem?_eq_none (by omega), Option.getD_none]
    decide

theorem mem_encodeBase32 {input : List UInt8} {pad : Bool} {c : Char} (h : c ∈ encodeBase32 input pad) :
    c ∈ pbase32 ∨ c = '=' := by
  unfold encodeBase32 at h
  cases pad <;> simp only [Bool.false_eq_true, if_true, if_false, List.mem_append, List.mem_map] at h
  · obtain ⟨v, -, rfl⟩ := h
    exact Or.inl (getD_pbase32_mem v)
  · rcases h with ⟨v, -, rfl⟩ | h
    · exact Or.inl (getD_pbase32_mem v)
    · exact Or.inr (List.eq_of_mem_replicate h)

theorem forall_mem_encodeBase32 {P : Char → Prop} (hdigit : ∀ c ∈ pbase32, P c) (hpad : P '=')
    (input : List UInt8) (pad : Bool) : ∀ c ∈ encodeBase32 input pad, P c := by
  intro c hc
  rcases mem_encodeBase32 hc with hc | rfl
  · exact hdigit c hc
  · exact hpad

/-- A fact about every character of a fixed text, read off the evaluated `List.all`: the check runs over the text,
never over every `Char`. -/
theorem forall_mem_of_all {p : Char → Prop} [DecidablePred p] {l : List Char}
    (h : (l.all fun c => decide (p c)) = true) : ∀ c ∈ l, p c :=
  fun c hc => of_decide_eq_true (List.all_eq_true.1 h c hc)

/-- The characters of IPv6 text: lower-case hex digits, colons, and the `%` and decimal digits of a scope. -/
def ipv6TextChars : List Char := ":%0123456789abcdef".toList

theorem exists_digitChar_of_mem_toDigits {b : Nat} (hb : 1 < b) {c : Char} :
    ∀ n, c ∈ Nat.toDigits b n → ∃ d < b, c = Nat.digitChar d := by
  intro n
  induction n using Nat.strongRecOn with
  | ind n ih =>
    rw [Nat.toDigits_eq_if hb]
    split
    · intro h
      exact ⟨n, ‹n < b›, List.mem_singleton.1 h⟩
    · intro h
      rcases List.mem_append.1 h with h | h
      · exact ih _ (Nat.div_lt_self (by omega) hb) h
      · exact ⟨n % b, Nat.mod_lt _ (by omega), List.mem_singleton.1 h⟩

theorem mem_ipv6TextChars_of_mem_toDigits {b n : Nat} {c : Char} (hb : 1 < b) (hb16 : b ≤ 16)
    (h : c ∈ Nat.toDigits b n) : c ∈ ipv6TextChars := by
  obtain ⟨d, hd, rfl⟩ := exists_digitChar_of_mem_toDigits hb n h
  have hhex : ∀ d < 16, Nat.digitChar d ∈ ipv6TextChars := by decide
  exact hhex d (by omega)

/-- The characters of IPv4 text: decimal digits and dots. -/
def ipv4TextChars : List Char := ".0123456789".toList

theorem forall_mem_ipv4ToString (a : List UInt8) : ∀ c ∈ ipv4ToString a, c ∈ ipv4TextChars := by
  have hdecimal : ∀ n, ∀ c ∈ Nat.toDigits 10 n, c ∈ ipv4TextChars := by
    intro n c hc
    obtain ⟨d, hd, rfl⟩ := exists_digitChar_of_mem_toDigits (by decide) n hc
    have hdigits : ∀ d < 10, Nat.digitChar d ∈ ipv4TextChars := by decide
    exact hdigits d hd
  have hdot : '.' ∈ ipv4TextChars := by decide
  simp only [ipv4ToString, List.forall_mem_append, List.forall_mem_cons]
  exact ⟨⟨⟨hdecimal _, hdot, hdecimal _⟩, hdot, hdecimal _⟩, hdot, hdecimal _⟩

/-- What every round of a fold keeps of each character of its text, the text it builds keeps. -/
theorem forall_mem_foldl {P : Char → Prop} {f : List Char → Nat → List Char}
    (hf : ∀ r i, (∀ c ∈ r, P c) → ∀ c ∈ f r i, P c) :
    ∀ (is : List Nat) (r : List Char), (∀ c ∈ r, P c) → ∀ c ∈ is.foldl f r, P c
  | [], _, hr => hr
  | i :: is, r, hr => forall_mem_foldl hf is (f r i) (hf r i hr)

/-- A round of the second loop of `IPv6ToString` appends `::`, nothing, or a colon and a group in hex. -/
theorem forall_mem_ipv6Round {r : List Char} (hr : ∀ c ∈ r, c ∈ ipv6TextChars) (p q : Prop) [Decidable p]
    [Decidable q] (g : Nat) :
    ∀ c ∈ (if p then (if q then r ++ [':', ':'] else r)
      else r ++ (if r ≠ [] ∧ r.getLast? ≠ some ':' then [':'] else []) ++ Nat.toDigits 16 g), c ∈ ipv6TextChars := by
  have hcolon : ':' ∈ ipv6TextChars := by decide
  intro c hc
  split_ifs at hc
  · -- `::` opens the longest run of zero groups
    simp only [List.mem_append, List.mem_cons, List.not_mem_nil, or_false] at hc
    rcases hc with hc | rfl | rfl
    · exact hr c hc
    all_goals exact hcolon
  · exact hr c hc
  · simp only [List.mem_append, List.mem_cons, List.not_mem_nil, or_false] at hc
    rcases hc with (hc | rfl) | hc
    · exact hr c hc
    · exact hcolon
    · exact mem_ipv6TextChars_of_mem_toDigits (by decide) (by decide) hc
  · simp only [List.mem_append, List.not_mem_nil, or_false] at hc
    rcases hc with hc | hc
    · exact hr c hc
    · exact mem_ipv6TextChars_of_mem_toDigits (by decide) (by decide) hc

theorem mem_ipv6TextChars_of_mem_ipv6ToString {a : List UInt8} {scope_id : Nat} {c : Char}
    (h : c ∈ ipv6ToString a scope_id) : c ∈ ipv6TextChars := by
  unfold ipv6ToString at h
  split_ifs at h
  · rcases List.mem_append.1 h with h | h
    · exact forall_mem_foldl (fun r _ hr => forall_mem_ipv6Round hr _ _ _) _ [] (by simp) c h
    · rcases List.mem_cons.1 h with rfl | h
      · decide
      · exact mem_ipv6TextChars_of_mem_toDigits (by decide) (by decide) h
  · exact forall_mem_foldl (fun r _ hr => forall_mem_ipv6Round hr _ _ _) _ [] (by simp) c h

section Text

variable (SHA3_256 : List UInt8 → List UInt8)

/-- `torv3::Checksum`: the first two bytes of `SHA3-256(".onion checksum" | pubkey | version)`. -/
def torChecksum (addr_pubkey : List UInt8) : List UInt8 :=
  (SHA3_256 (".onion checksum".toList.map (fun c => c.toNat.toUInt8) ++ addr_pubkey ++ [3])).take 2

def onionToString (addr : List UInt8) : List Char :=
  encodeBase32 (addr ++ torChecksum SHA3_256 addr ++ [3]) true ++ ".onion".toList

def CNetAddr.toStringAddr (a : CNetAddr) : List Char :=
  match a.m_net with
  | .NET_IPV4 => ipv4ToString a.m_addr
  | .NET_IPV6 => ipv6ToString a.m_addr a.m_scope_id
  | .NET_ONION => onionToString SHA3_256 a.m_addr
  | .NET_I2P => encodeBase32 a.m_addr false ++ ".b32.i2p".toList
  | .NET_CJDNS => ipv6ToString a.m_addr 0
  | .NET_INTERNAL => encodeBase32 a.m_addr true ++ ".internal".toList

def CService.toStringAddrPort (s : CService) : List Char :=
  let port_str := Nat.toDigits 10 s.port
  match s.m_net with
  | .NET_IPV4 | .NET_ONION | .NET_I2P | .NET_INTERNAL => s.toStringAddr SHA3_256 ++ ':' :: port_str
  | .NET_IPV6 | .NET_CJDNS => '[' :: s.toStringAddr SHA3_256 ++ ']' :: ':' :: port_str

/-- The text of a service is never empty: its port follows a colon. -/
theorem CService.toStringAddrPort_ne_nil (s : CService) : s.toStringAddrPort SHA3_256 ≠ [] := by
  unfold CService.toStringAddrPort
  split <;> simp

theorem CService.toStringAddrPort_of_ipv6 {s : CService} (h : s.m_net = .NET_IPV6) :
    s.toStringAddrPort SHA3_256 = '[' :: ipv6ToString s.m_addr s.m_scope_id ++ ']' :: ':' :: Nat.toDigits 10 s.port := by
  simp [CService.toStringAddrPort, CNetAddr.toStringAddr, h]

theorem CService.toStringAddrPort_of_ipv4 {s : CService} (h : s.m_net = .NET_IPV4) :
    s.toStringAddrPort SHA3_256 = ipv4ToString s.m_addr ++ ':' :: Nat.toDigits 10 s.port := by
  simp [CService.toStringAddrPort, CNetAddr.toStringAddr, h]

theorem CService.toStringAddrPort_of_onion {s : CService} (h : s.m_net = .NET_ONION) :
    s.toStringAddrPort SHA3_256 = onionToString SHA3_256 s.m_addr ++ ':' :: Nat.toDigits 10 s.port := by
  simp [CService.toStringAddrPort, CNetAddr.toStringAddr, h]

theorem CService.toStringAddrPort_of_i2p {s : CService} (h : s.m_net = .NET_I2P) :
    s.toStringAddrPort SHA3_256 = (encodeBase32 s.m_addr false ++ ".b32.i2p".toList) ++ ':' :: Nat.toDigits 10 s.port := by
  simp [CService.toStringAddrPort, CNetAddr.toStringAddr, h]

/-- A CJDNS service is written as the IPv6 service with its bytes, without a scope. -/
theorem CService.toStringAddrPort_of_cjdns {s : CService} (h : s.m_net = .NET_CJDNS) :
    s.toStringAddrPort SHA3_256 = '[' :: ipv6ToString s.m_addr 0 ++ ']' :: ':' :: Nat.toDigits 10 s.port := by
  simp [CService.toStringAddrPort, CNetAddr.toStringAddr, h]

/-- A CJDNS service and the IPv6 service with its bytes and no scope are written alike. -/
theorem CService.toStringAddrPort_ipv6_of_cjdns {s : CService} (h : s.m_net = .NET_CJDNS) :
    ({ s with m_net := .NET_IPV6, m_scope_id := 0 } : CService).toStringAddrPort SHA3_256 = s.toStringAddrPort SHA3_256 := by
  rw [CService.toStringAddrPort_of_ipv6 SHA3_256 rfl, CService.toStringAddrPort_of_cjdns SHA3_256 h]

/-- No text of an address holds a blank, a tab or a line end. -/
theorem CNetAddr.not_blank_of_mem_toStringAddr (a : CNetAddr) :
    ∀ c ∈ a.toStringAddr SHA3_256, c ∉ [' ', '\t', '\r', '\n'] := by
  have hipv6 : ∀ c ∈ ipv6TextChars, c ∉ [' ', '\t', '\r', '\n'] := forall_mem_of_all (by decide)
  have hdecimal : ∀ n, ∀ c ∈ Nat.toDigits 10 n, c ∉ [' ', '\t', '\r', '\n'] :=
    fun _ c hc => hipv6 c (mem_ipv6TextChars_of_mem_toDigits (by decide) (by decide) hc)
  have hchars : ∀ c ∈ pbase32, c ∉ [' ', '\t', '\r', '\n'] := forall_mem_of_all (by decide)
  have hbase32 := forall_mem_encodeBase32 hchars (by decide)
  unfold CNetAddr.toStringAddr
  split
  · simp only [ipv4ToString, List.forall_mem_append, List.forall_mem_cons]
    exact ⟨⟨⟨hdecimal _, by decide, hdecimal _⟩, by decide, hdecimal _⟩, by decide, hdecimal _⟩
  · exact fun c hc => hipv6 c (mem_ipv6TextChars_of_mem_ipv6ToString hc)
  · simp only [onionToString, List.forall_mem_append]
    exact ⟨hbase32 _ _, forall_mem_of_all (by decide)⟩
  · simp only [List.forall_mem_append]
    exact ⟨hbase32 _ _, forall_mem_of_all (by decide)⟩
  · exact fun c hc => hipv6 c (mem_ipv6TextChars_of_mem_ipv6ToString hc)
  · simp only [List.forall_mem_append]
    exact ⟨hbase32 _ _, forall_mem_of_all (by decide)⟩

theorem CService.not_blank_of_mem_toStringAddrPort (s : CService) :
    ∀ c ∈ s.toStringAddrPort SHA3_256, c ∉ [' ', '\t', '\r', '\n'] := by
  have haddr := s.not_blank_of_mem_toStringAddr SHA3_256
  have hport : ∀ c ∈ Nat.toDigits 10 s.port, c ∉ [' ', '\t', '\r', '\n'] := by
    rintro c hc hblank
    have hdigit := Nat.isDigit_of_mem_toDigits (by decide) (by decide) hc
    revert hdigit
    simp only [List.mem_cons, List.not_mem_nil, or_false] at hblank
    rcases hblank with rfl | rfl | rfl | rfl <;> decide
  unfold CService.toStringAddrPort
  split <;> simp only [List.forall_mem_append, List.forall_mem_cons]
  all_goals first
    | exact ⟨haddr, by decide, hport⟩
    | exact ⟨⟨by decide, haddr⟩, by decide, by decide, hport⟩

end Text

/-! ### Text as addresses -/

def containsNoNUL (str : List Char) : Bool := str.all (· ≠ '\x00')

theorem containsNoNUL_iff {str : List Char} : containsNoNUL str = true ↔ ∀ c ∈ str, c ≠ '\x00' := by
  simp [containsNoNUL]

@[simp] theorem containsNoNUL_append (a b : List Char) :
    containsNoNUL (a ++ b) = (containsNoNUL a && containsNoNUL b) := List.all_append

@[simp] theorem containsNoNUL_cons (c : Char) (str : List Char) :
    containsNoNUL (c :: str) = (decide (c ≠ '\x00') && containsNoNUL str) := List.all_cons

/-- The last position of `c` in `str`, `npos` being `none`. -/
def findLastOf (c : Char) (str : List Char) : Option Nat :=
  (List.range str.length).foldl (fun last i => if str.getD i ' ' = c then some i else last) none

/-- `ToIntegral<T>` for a `bits`-bit unsigned `T`: `std::from_chars` must read the whole text, as decimal digits,
to a value that fits. -/
def toIntegral (bits : Nat) (str : List Char) : Option Nat :=
  if str ≠ [] ∧ str.all Char.isDigit ∧ Nat.ofDigitChars 10 str 0 < 2 ^ bits then some (Nat.ofDigitChars 10 str 0)
  else none

/-- `ParseUInt16`: `ToIntegral` after one leading `+`, and never after `+-`. -/
def parseUInt16 (str : List Char) : Option Nat :=
  if str.length ≥ 2 ∧ str.getD 0 ' ' = '+' ∧ str.getD 1 ' ' = '-' then none
  else toIntegral 16 (if str.head? = some '+' then str.drop 1 else str)

/-- The host of `SplitHostPort`: the text without the brackets around it. -/
def stripBrackets (str : List Char) : List Char :=
  if str ≠ [] ∧ str.head? = some '[' ∧ str.getLast? = some ']' then (str.drop 1).dropLast else str

/-- `SplitHostPort(in, portOut, hostOut)`: whether the text had a valid port, `portOut` and `hostOut`.  A colon
separates a port when it is the first character, follows `[...]`, or is the only colon. -/
def splitHostPort (str : List Char) (portOut : Nat) : Bool × Nat × List Char :=
  match findLastOf ':' str with
  | none => (true, portOut, stripBrackets str)
  | some colon =>
    let fBracketed := str.head? = some '[' ∧ str.getD (colon - 1) ' ' = ']'
    let fMultiColon := colon ≠ 0 ∧ (findLastOf ':' (str.take colon)).isSome
    if colon = 0 ∨ fBracketed ∨ ¬fMultiColon then
      match parseUInt16 (str.drop (colon + 1)) with
      | some n => (n ≠ 0, n, stripBrackets (str.take colon))
      | none => (false, portOut, stripBrackets str)
    else (true, portOut, stripBrackets str)

/-- The fold of `findLastOf` keeps its value over positions that do not hold `c`. -/
theorem foldl_findLast_of_ne {c : Char} {str : List Char} {last : Option Nat} :
    ∀ {is : List Nat}, (∀ i ∈ is, str.getD i ' ' ≠ c) →
      is.foldl (fun last i => if str.getD i ' ' = c then some i else last) last = last
  | [], _ => rfl
  | i :: is, h => by
    rw [List.foldl_cons, if_neg (h i List.mem_cons_self)]
    exact foldl_findLast_of_ne fun j hj => h j (List.mem_cons_of_mem i hj)

theorem findLastOf_of_not_mem {c : Char} {str : List Char} (hc : c ≠ ' ') (h : c ∉ str) : findLastOf c str = none := by
  rw [findLastOf]
  refine foldl_findLast_of_ne fun i _ hi => ?_
  rw [List.getD_eq_getElem?_getD] at hi
  by_cases hlt : i < str.length
  · rw [List.getElem?_eq_getElem hlt, Option.getD_some] at hi
    exact h (hi ▸ List.getElem_mem hlt)
  · rw [List.getElem?_eq_none (by omega), Option.getD_none] at hi
    exact hc hi.symm

theorem findLastOf_append_cons {c : Char} {l r : List Char} (hr : c ∉ r) :
    findLastOf c (l ++ c :: r) = some l.length := by
  have hlen : (l ++ c :: r).length = (l.length + 1) + r.length := by simp; omega
  have hc : (l ++ c :: r).getD l.length ' ' = c := by simp
  rw [findLastOf, hlen, List.range_add, List.foldl_append, List.range_succ, List.foldl_append, List.foldl_cons,
    List.foldl_nil, if_pos hc]
  -- no position after the last `c` holds one
  apply foldl_findLast_of_ne
  intro i hi
  obtain ⟨j, hj, rfl⟩ := List.mem_map.1 hi
  have hj : j < r.length := List.mem_range.1 hj
  have hget : (l ++ c :: r).getD (l.length + 1 + j) ' ' = r[j] := by
    simp [List.getD_eq_getElem?_getD, Nat.add_assoc, Nat.add_comm 1 j, hj]
  rw [hget]
  exact fun h => hr (h ▸ List.getElem_mem hj)

/-- A decimal number is digits only: no colon, no NUL. -/
theorem colon_nul_not_mem_toDigits (n : Nat) : ':' ∉ Nat.toDigits 10 n ∧ '\x00' ∉ Nat.toDigits 10 n :=
  ⟨fun h => absurd (Nat.isDigit_of_mem_toDigits (by decide) (by decide) h) (by decide),
    fun h => absurd (Nat.isDigit_of_mem_toDigits (by decide) (by decide) h) (by decide)⟩

@[simp] theorem containsNoNUL_toDigits (n : Nat) : containsNoNUL (Nat.toDigits 10 n) = true :=
  containsNoNUL_iff.2 fun _ hc hnul => (colon_nul_not_mem_toDigits n).2 (hnul ▸ hc)

theorem parseUInt16_toDigits {port : Nat} (hport : port < 2 ^ 16) : parseUInt16 (Nat.toDigits 10 port) = some port := by
  have hdigit : ∀ c ∈ Nat.toDigits 10 port, c.isDigit = true :=
    fun c hc => Nat.isDigit_of_mem_toDigits (by decide) (by decide) hc
  obtain ⟨d, ds, hds⟩ := List.exists_cons_of_ne_nil (Nat.toDigits_ne_nil (n := port) (b := 10))
  -- the text starts with a digit, not a sign
  have hd : d ≠ '+' := by
    rintro rfl
    exact absurd (hdigit '+' (by simp [hds])) (by decide)
  have hintegral : toIntegral 16 (Nat.toDigits 10 port) = some port := by
    rw [toIntegral, Nat.ofDigitChars_ten_toDigits, if_pos ⟨Nat.toDigits_ne_nil, List.all_eq_true.2 hdigit, hport⟩]
  rw [parseUInt16, if_neg (by rw [hds]; simp [hd]), if_neg (by rw [hds]; simp [hd]), hintegral]

/-- `SplitHostPort` of `[host]:port`, whatever the host: the port, valid when not zero, and the host. -/
theorem splitHostPort_bracketed (host : List Char) {port : Nat} (portOut : Nat) (hport : port < 2 ^ 16) :
    splitHostPort ('[' :: host ++ ']' :: ':' :: Nat.toDigits 10 port) portOut = (decide (port ≠ 0), port, host) := by
  have hstr : '[' :: host ++ ']' :: ':' :: Nat.toDigits 10 port = ('[' :: host ++ [']']) ++ ':' :: Nat.toDigits 10 port := by
    simp
  have hcolon := findLastOf_append_cons (l := '[' :: host ++ [']']) (colon_nul_not_mem_toDigits port).1
  have hlast : ('[' :: (host ++ [']'])).getLast? = some ']' := by
    rw [← List.cons_append, List.getLast?_concat]
  rw [hstr, splitHostPort, hcolon]
  simp [parseUInt16_toDigits hport, stripBrackets, List.take_length_add_append, hlast]

/-- `SplitHostPort` of `host:port` for a host with no colon that does not start with `[`: the port, valid when not
zero, and the host. -/
theorem splitHostPort_unbracketed {host : List Char} {port : Nat} (portOut : Nat) (hcolon : ':' ∉ host)
    (hhead : host.head? ≠ some '[') (hport : port < 2 ^ 16) :
    splitHostPort (host ++ ':' :: Nat.toDigits 10 port) portOut = (decide (port ≠ 0), port, host) := by
  have hstrip : stripBrackets host = host := by
    rw [stripBrackets, if_neg fun h => hhead h.2.1]
  rw [splitHostPort, findLastOf_append_cons (colon_nul_not_mem_toDigits port).1]
  simp [parseUInt16_toDigits hport, findLastOf_of_not_mem (by decide) hcolon, hstrip]

/-- `std::function<std::vector<CNetAddr>(const std::string&, bool)>`: the resolver `Lookup` is given, by default
`getaddrinfo` with `AI_NUMERICHOST` when no lookup is allowed. -/
abbrev DNSLookupFn := List Char → Bool → List CNetAddr

section Parse

variable (SHA3_256 : List UInt8 → List UInt8)

def torv3_TOTAL_LEN : Nat := ADDR_TORV3_SIZE + 2 + 1

/-- `SetTor` on a default address: the base32 of a key, its checksum and version 3, then `.onion`. -/
def setTor (addr : List Char) : Option CNetAddr :=
  if addr.length ≤ 6 ∨ addr.drop (addr.length - 6) ≠ ".onion".toList then none
  else
    match decodeBase32 (addr.take (addr.length - 6)) with
    | none => none
    | some input =>
      if input.length = torv3_TOTAL_LEN then
        let input_pubkey := input.take ADDR_TORV3_SIZE
        let input_checksum := (input.drop ADDR_TORV3_SIZE).take 2
        let input_version := input.drop (ADDR_TORV3_SIZE + 2)
        if input_version ≠ [3] then none
        else if input_checksum ≠ torChecksum SHA3_256 input_pubkey then none
        else some { m_net := .NET_ONION, m_addr := input_pubkey }
      else none

/-- `ToLower`, on ASCII. -/
def toLower (str : List Char) : List Char := str.map Char.toLower

/-- `SetI2P` on a default address: 52 base32 characters, then `.b32.i2p` in any case. -/
def setI2P (addr : List Char) : Option CNetAddr :=
  if addr.length ≠ 52 + 8 ∨ toLower (addr.drop 52) ≠ ".b32.i2p".toList then none
  else
    match decodeBase32 (addr.take 52 ++ "====".toList) with
    | some address_bytes => if address_bytes.length = ADDR_I2P_SIZE then some { m_net := .NET_I2P, m_addr := address_bytes }
      else none
    | none => none

def setSpecial (addr : List Char) : Option CNetAddr :=
  if !containsNoNUL addr then none
  else (setTor SHA3_256 addr).orElse fun _ => setI2P addr

/-- The loop of `LookupIntern` over what the resolver returned: at most `nMaxSolutions` (any number for zero) of the
addresses that are not internal. -/
def collectResolved (nMaxSolutions : Nat) : List CNetAddr → List CNetAddr → List CNetAddr
  | [], addresses => addresses
  | resolved :: rest, addresses =>
    if nMaxSolutions > 0 ∧ addresses.length ≥ nMaxSolutions then addresses
    else collectResolved nMaxSolutions rest (if resolved.isInternal then addresses else addresses ++ [resolved])

theorem setTor_eq_none {addr : List Char} (honion : addr.drop (addr.length - 6) ≠ ".onion".toList) :
    setTor SHA3_256 addr = none := by
  rw [setTor, if_pos (Or.inr honion)]

/-- A name that is neither a Tor nor an I2P name is left to the resolver. -/
theorem setSpecial_eq_none {addr : List Char} (honion : addr.drop (addr.length - 6) ≠ ".onion".toList)
    (hi2p : setI2P addr = none) : setSpecial SHA3_256 addr = none := by
  simp [setSpecial, setTor_eq_none SHA3_256 honion, hi2p]

/-- A name drawn from characters with no `n`, none of which lowers to `i`, is neither a Tor nor an I2P name: the
suffix `.onion` has an `n` and `.b32.i2p` an `i`. -/
theorem setSpecial_of_chars {host chars : List Char} (hhost : ∀ c ∈ host, c ∈ chars) (hn : 'n' ∉ chars)
    (hi : ∀ c ∈ chars, c.toLower ≠ 'i') : setSpecial SHA3_256 host = none := by
  apply setSpecial_eq_none
  · intro h
    exact hn (hhost 'n' (List.mem_of_mem_drop (h ▸ (by decide : 'n' ∈ ".onion".toList))))
  · rw [setI2P, if_pos (Or.inr ?_)]
    intro h
    obtain ⟨c, hc, hlower⟩ := List.mem_map.1 (h ▸ (by decide : 'i' ∈ ".b32.i2p".toList))
    exact hi c (hhost c (List.mem_of_mem_drop hc)) hlower

theorem setSpecial_of_ipv6Text {host : List Char} (hhost : ∀ c ∈ host, c ∈ ipv6TextChars) :
    setSpecial SHA3_256 host = none :=
  setSpecial_of_chars SHA3_256 hhost (by decide) (forall_mem_of_all (by decide))

variable (dns_lookup_function : DNSLookupFn)

def lookupIntern (name : List Char) (nMaxSolutions : Nat) (fAllowLookup : Bool) : List CNetAddr :=
  if !containsNoNUL name then []
  else
    match setSpecial SHA3_256 name with
    | some addr => [addr]
    | none => collectResolved nMaxSolutions (dns_lookup_function name fAllowLookup) []

def lookup (name : List Char) (portDefault : Nat) (fAllowLookup : Bool) (nMaxSolutions : Nat) : List CService :=
  if name = [] ∨ !containsNoNUL name then []
  else
    let (_, port, hostname) := splitHostPort name portDefault
    (lookupIntern SHA3_256 dns_lookup_function hostname nMaxSolutions fAllowLookup).map fun addr => { addr with port }

/-- `LookupNumeric`: the first address `Lookup` finds without a name lookup, or `[::]:0`. -/
def lookupNumeric (name : List Char) (portDefault : Nat) : CService :=
  if !containsNoNUL name then {}
  else ((lookup SHA3_256 dns_lookup_function name portDefault false 1).head?).getD {}

/-- `LookupNumeric` of a text whose host `LookupIntern` reads as one address: that address at the text's port. -/
theorem lookupNumeric_of_lookupIntern {name host : List Char} {portDefault port : Nat} {valid : Bool} {addr : CNetAddr}
    (hname : name ≠ []) (hnul : containsNoNUL name = true) (hsplit : splitHostPort name portDefault = (valid, port, host))
    (hintern : lookupIntern SHA3_256 dns_lookup_function host 1 false = [addr]) :
    lookupNumeric SHA3_256 dns_lookup_function name portDefault = { addr with port } := by
  rw [lookupNumeric, lookup, hnul, hsplit]
  simp [hintern, hname]

/-- `LookupNumeric` of a text whose host the resolver reads, as the only address, to one that is not internal: that
address at the text's port. -/
theorem lookupNumeric_of_resolved {name host : List Char} {portDefault port : Nat} {valid : Bool} {addr : CNetAddr}
    (hname : name ≠ []) (hnul : containsNoNUL name = true) (hsplit : splitHostPort name portDefault = (valid, port, host))
    (hhost : containsNoNUL host = true) (hspecial : setSpecial SHA3_256 host = none)
    (hdns : dns_lookup_function host false = [addr]) (hinternal : addr.isInternal = false) :
    lookupNumeric SHA3_256 dns_lookup_function name portDefault = { addr with port } := by
  apply lookupNumeric_of_lookupIntern SHA3_256 dns_lookup_function hname hnul hsplit
  rw [lookupIntern, hhost, hspecial, hdns]
  simp [collectResolved, hinternal]

/-- `LookupNumeric` of a text whose host `SetSpecial` reads: that address at the text's port, the resolver unasked. -/
theorem lookupNumeric_of_special {name host : List Char} {portDefault port : Nat} {valid : Bool} {addr : CNetAddr}
    (hname : name ≠ []) (hnul : containsNoNUL name = true) (hsplit : splitHostPort name portDefault = (valid, port, host))
    (hhost : containsNoNUL host = true) (hspecial : setSpecial SHA3_256 host = some addr) :
    lookupNumeric SHA3_256 dns_lookup_function name portDefault = { addr with port } := by
  apply lookupNumeric_of_lookupIntern SHA3_256 dns_lookup_function hname hnul hsplit
  rw [lookupIntern, hhost, hspecial]
  rfl

/-- `LookupNumeric` of `host:port` for a name that `SetSpecial` reads and that holds no colon, `[` or NUL. -/
theorem lookupNumeric_named {host : List Char} {port portDefault : Nat} {addr : CNetAddr}
    (hhost : ∀ c ∈ host, c ≠ ':' ∧ c ≠ '[' ∧ c ≠ '\x00') (hport : port < 2 ^ 16)
    (hspecial : setSpecial SHA3_256 host = some addr) :
    lookupNumeric SHA3_256 dns_lookup_function (host ++ ':' :: Nat.toDigits 10 port) portDefault = { addr with port } := by
  have hhead : host.head? ≠ some '[' := fun h => (hhost '[' (List.mem_of_mem_head? h)).2.1 rfl
  have hnul : containsNoNUL host = true := containsNoNUL_iff.2 fun c hc => (hhost c hc).2.2
  apply lookupNumeric_of_special SHA3_256 dns_lookup_function (by simp) (by simp [hnul])
    (splitHostPort_unbracketed portDefault (fun h => (hhost ':' h).1 rfl) hhead hport) hnul hspecial

/-- `LookupNumeric` of `[host]:port` for IPv6 text: the one address the resolver reads the host as, at the port. -/
theorem lookupNumeric_bracketed {host : List Char} {port portDefault : Nat} {addr : CNetAddr}
    (hhost : ∀ c ∈ host, c ∈ ipv6TextChars) (hport : port < 2 ^ 16)
    (hdns : dns_lookup_function host false = [addr]) (hinternal : addr.isInternal = false) :
    lookupNumeric SHA3_256 dns_lookup_function ('[' :: host ++ ']' :: ':' :: Nat.toDigits 10 port) portDefault =
      { addr with port } := by
  have hchars : ∀ c ∈ ipv6TextChars, c ≠ '\x00' := forall_mem_of_all (by decide)
  have hnul : containsNoNUL host = true := containsNoNUL_iff.2 fun c hc => hchars c (hhost c hc)
  apply lookupNumeric_of_resolved SHA3_256 dns_lookup_function (List.cons_ne_nil _ _) (by simp [hnul])
    (splitHostPort_bracketed host portDefault hport) hnul (setSpecial_of_ipv6Text SHA3_256 hhost) hdns hinternal

/-- The text of an IPv6 address and port, when the resolver reads the address text back as its bytes and scope and the
bytes embed no other network: the IPv6 service with those bytes, scope and port. -/
theorem lookupNumeric_in6 {a : List UInt8} {scope port portDefault : Nat}
    (hlegacy : CNetAddr.setLegacyIPv6 a = { m_net := .NET_IPV6, m_addr := a }) (hport : port < 2 ^ 16)
    (hdns : dns_lookup_function (ipv6ToString a scope) false = [CNetAddr.ofIn6Addr a scope]) :
    lookupNumeric SHA3_256 dns_lookup_function ('[' :: ipv6ToString a scope ++ ']' :: ':' :: Nat.toDigits 10 port)
      portDefault = { m_net := .NET_IPV6, m_addr := a, m_scope_id := scope, port } := by
  have hinternal : (CNetAddr.ofIn6Addr a scope).isInternal = false := by
    simp [CNetAddr.ofIn6Addr, hlegacy, CNetAddr.isInternal]
  rw [lookupNumeric_bracketed SHA3_256 dns_lookup_function (fun _ => mem_ipv6TextChars_of_mem_ipv6ToString) hport hdns
    hinternal, CNetAddr.ofIn6Addr, hlegacy]

/-- An IPv4 service without a scope comes back from its text as itself when the resolver reads the dotted text as its
bytes. -/
theorem lookupNumeric_ipv4 {s : CService} (hnet : s.m_net = .NET_IPV4) (hscope : s.m_scope_id = 0)
    (hport : s.port < 2 ^ 16) (portDefault : Nat)
    (hdns : dns_lookup_function (ipv4ToString s.m_addr) false = [CNetAddr.ofInAddr s.m_addr]) :
    lookupNumeric SHA3_256 dns_lookup_function (s.toStringAddrPort SHA3_256) portDefault = s := by
  have hchars := forall_mem_ipv4ToString s.m_addr
  have hplain : ∀ c ∈ ipv4TextChars, c ≠ ':' ∧ c ≠ '[' ∧ c ≠ '\x00' := forall_mem_of_all (by decide)
  have hhead : (ipv4ToString s.m_addr).head? ≠ some '[' :=
    fun h => (hplain '[' (hchars '[' (List.mem_of_mem_head? h))).2.1 rfl
  have hnul : containsNoNUL (ipv4ToString s.m_addr) = true :=
    containsNoNUL_iff.2 fun c hc => (hplain c (hchars c hc)).2.2
  have hsplit := splitHostPort_unbracketed portDefault (fun h => (hplain ':' (hchars ':' h)).1 rfl) hhead hport
  rw [CService.toStringAddrPort_of_ipv4 SHA3_256 hnet, lookupNumeric_of_resolved SHA3_256 dns_lookup_function
    (by simp) (by simp [hnul]) hsplit hnul (setSpecial_of_chars SHA3_256 hchars (by decide) (forall_mem_of_all (by decide)))
    hdns rfl]
  exact CService.mk_parts hnet hscope

/-- A CJDNS service comes back from its text as the IPv6 service with its bytes, without a scope. -/
theorem lookupNumeric_cjdns {s : CService} (hnet : s.m_net = .NET_CJDNS) (hfc : s.hasCJDNSPrefix = true)
    (hport : s.port < 2 ^ 16) (portDefault : Nat)
    (hdns : dns_lookup_function (ipv6ToString s.m_addr 0) false = [CNetAddr.ofIn6Addr s.m_addr 0]) :
    lookupNumeric SHA3_256 dns_lookup_function (s.toStringAddrPort SHA3_256) portDefault =
      { s with m_net := .NET_IPV6, m_scope_id := 0 } := by
  have hlegacy := CNetAddr.setLegacyIPv6_of_cjdns (by simpa [CNetAddr.hasCJDNSPrefix] using hfc)
  rw [CService.toStringAddrPort_of_cjdns SHA3_256 hnet, lookupNumeric_in6 SHA3_256 dns_lookup_function hlegacy hport hdns]

/-- An IPv6 service whose bytes embed no other network comes back from its text as itself. -/
theorem lookupNumeric_ipv6 {s : CService} (hnet : s.m_net = .NET_IPV6)
    (hlegacy : CNetAddr.setLegacyIPv6 s.m_addr = { m_net := .NET_IPV6, m_addr := s.m_addr }) (hport : s.port < 2 ^ 16)
    (portDefault : Nat)
    (hdns : dns_lookup_function (ipv6ToString s.m_addr s.m_scope_id) false =
      [CNetAddr.ofIn6Addr s.m_addr s.m_scope_id]) :
    lookupNumeric SHA3_256 dns_lookup_function (s.toStringAddrPort SHA3_256) portDefault = s := by
  rw [CService.toStringAddrPort_of_ipv6 SHA3_256 hnet, lookupNumeric_in6 SHA3_256 dns_lookup_function hlegacy hport hdns]
  exact CService.mk_parts hnet rfl

end Parse

end Net
end Wattx
