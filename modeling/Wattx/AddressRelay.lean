import Wattx.Base32
import Wattx.TrustScore
/-!
# AddressRelay — the address a validator announces, as it is stored, hashed and relayed

`ValidatorInfo::Serialize` and `Heartbeat::Serialize` (`trust/trustscore.h`) write the address as the text of
`ToStringAddrPort`, and `Unserialize` reads a non-empty text back with `LookupNumeric(text, 18888)`.
`Heartbeat::GetHash` hashes the same text.  `PeerDiscoveryManager` keeps its validator peers in a config file of
`addnode=` lines, written with `ToStringAddrPort` (`SavePeersToConfig`) and read back a trimmed line at a time with
`LookupNumeric`, keeping the valid addresses (`LoadPeersFromConfig`).  The serialized records are modelled field by
field, every field but the address written by its own serializer, which reads back what it wrote; the config file as
the lines written to it.

A service that `LookupNumeric` reads back from its own text relays exactly in every record holding it
(`records_relayed_of_lookupNumeric`), and a peers file of valid such services, none equal to another, reads back as
the same peers (`peersFile_relayed_of_lookupNumeric`): IPv4 and IPv6 services whose text the resolver reads back, and
Tor v3 and I2P services, which `SetSpecial` decodes whatever the resolver.  A CJDNS address does not survive: its
text is IPv6 text in brackets, `SetSpecial` does not take it, and the resolver reads it as the IPv6 address with the
same bytes.  The record read back holds an IPv6
address, while its text, and so the heartbeat's hash, is unchanged (`cjdns_address_relayed_as_ipv6`).
-/
namespace Wattx
namespace Trust

open Net

variable {κ σ : Type}

/-- `ValidatorInfo` with the address and check-in fields the trust code does not read. -/
structure FullValidatorInfo (κ : Type) extends ValidatorInfo κ where
  lastKnownAddress : CService
  lastCheckInTime : Int
  consecutiveCheckIns : Int
  missedCheckIns : Int

/-- What `ValidatorInfo::Serialize` writes, in its order. -/
structure ValidatorInfoStream (κ : Type) where
  info : ValidatorInfo κ
  addrStr : List Char
  lastCheckInTime : Int
  consecutiveCheckIns : Int
  missedCheckIns : Int

/-- `Heartbeat` with the address and port it announces. -/
structure FullHeartbeat (κ σ : Type) extends Heartbeat κ σ where
  nodeAddress : CService
  nodePort : Nat

/-- What `Heartbeat::Serialize` writes, in its order. -/
structure HeartbeatStream (κ σ : Type) where
  validatorId : κ
  blockHeight : Int
  blockHash : Nat
  timestamp : Int
  addrStr : List Char
  nodePort : Nat
  signature : σ

section Relay

variable (SHA3_256 : List UInt8 → List UInt8) (dns_lookup_function : DNSLookupFn)

/-- The address an `Unserialize` reads into an object that held `prior`: an empty text leaves it. -/
def readAddress (prior : CService) (addrStr : List Char) : CService :=
  if addrStr.isEmpty then prior else lookupNumeric SHA3_256 dns_lookup_function addrStr 18888

def FullValidatorInfo.serialize (v : FullValidatorInfo κ) : ValidatorInfoStream κ :=
  ⟨v.toValidatorInfo, v.lastKnownAddress.toStringAddrPort SHA3_256, v.lastCheckInTime, v.consecutiveCheckIns,
    v.missedCheckIns⟩

/-- `ValidatorInfo::Unserialize` into the object `v`. -/
def FullValidatorInfo.unserialize (v : FullValidatorInfo κ) (s : ValidatorInfoStream κ) : FullValidatorInfo κ :=
  { s.info with
    lastKnownAddress := readAddress SHA3_256 dns_lookup_function v.lastKnownAddress s.addrStr
    lastCheckInTime := s.lastCheckInTime
    consecutiveCheckIns := s.consecutiveCheckIns
    missedCheckIns := s.missedCheckIns }

def FullHeartbeat.serialize (hb : FullHeartbeat κ σ) : HeartbeatStream κ σ :=
  ⟨hb.validatorId, hb.blockHeight, hb.blockHash, hb.timestamp, hb.nodeAddress.toStringAddrPort SHA3_256, hb.nodePort,
    hb.signature⟩

/-- `Heartbeat::Unserialize` into the object `hb`. -/
def FullHeartbeat.unserialize (hb : FullHeartbeat κ σ) (s : HeartbeatStream κ σ) : FullHeartbeat κ σ :=
  { validatorId := s.validatorId
    blockHeight := s.blockHeight
    blockHash := s.blockHash
    timestamp := s.timestamp
    nodeAddress := readAddress SHA3_256 dns_lookup_function hb.nodeAddress s.addrStr
    nodePort := s.nodePort
    signature := s.signature }

/-- What `Heartbeat::GetHash` writes to its `HashWriter`: the address as its text. -/
def FullHeartbeat.hashInput (hb : FullHeartbeat κ σ) : κ × Int × Nat × Int × List Char × Nat :=
  (hb.validatorId, hb.blockHeight, hb.blockHash, hb.timestamp, hb.nodeAddress.toStringAddrPort SHA3_256, hb.nodePort)

/-- The lines `SavePeersToConfig` writes: three comments, an empty line, and an `addnode=` line per peer. -/
def savePeersToConfig (knownValidatorPeers : List CService) : List (List Char) :=
  ["# WATTx Validator Peers - Auto-generated".toList, "# These peers were discovered from validator heartbeats".toList,
    "# Format: addnode=IP:PORT".toList, []] ++
  knownValidatorPeers.map fun peer => "addnode=".toList ++ peer.toStringAddrPort SHA3_256

/-- `std::string::find`: the first position where `pattern` starts in `str`. -/
def findSubstr (pattern str : List Char) : Option Nat :=
  (List.range (str.length + 1)).find? fun i => (str.drop i).take pattern.length = pattern

/-- The two `erase` calls of `LoadPeersFromConfig`: leading blanks and tabs, then trailing blanks, tabs and line
ends. -/
def trimAddr (addrStr : List Char) : List Char :=
  ((addrStr.dropWhile (· ∈ [' ', '\t'])).reverse.dropWhile (· ∈ [' ', '\t', '\r', '\n'])).reverse

/-- `std::set<CService>::insert`: nothing when an equal service is there. -/
def insertPeer (peers : List CService) (addr : CService) : List CService :=
  if peers.any (·.equals addr) then peers else peers ++ [addr]

/-- The end of the loop body of `LoadPeersFromConfig`, for a trimmed text that is not empty: the service it reads as
joins the set when it is valid. -/
def insertParsedPeer (peers : List CService) (addrStr : List Char) : List CService :=
  let addr := lookupNumeric SHA3_256 dns_lookup_function addrStr 18888
  if addr.isValid then insertPeer peers addr else peers

/-- One line of `LoadPeersFromConfig`: comments, empty lines and lines without `addnode=` are skipped. -/
def loadPeerLine (peers : List CService) (line : List Char) : List CService :=
  if line = [] ∨ line.head? = some '#' then peers
  else
    match findSubstr "addnode=".toList line with
    | none => peers
    | some pos =>
      let addrStr := trimAddr (line.drop (pos + 8))
      if addrStr ≠ [] then insertParsedPeer SHA3_256 dns_lookup_function peers addrStr else peers

def loadPeersFromConfig (lines : List (List Char)) (knownValidatorPeers : List CService) : List CService :=
  lines.foldl (loadPeerLine SHA3_256 dns_lookup_function) knownValidatorPeers

/-! ### Records read back from what they wrote -/

theorem readAddress_of_ne_nil {prior : CService} {addrStr : List Char} (h : addrStr ≠ []) :
    readAddress SHA3_256 dns_lookup_function prior addrStr = lookupNumeric SHA3_256 dns_lookup_function addrStr 18888 := by
  simp [readAddress, h]

/-- A record read back from what it wrote has every field it had but the address, which is what `LookupNumeric`
reads the address's text as. -/
theorem FullValidatorInfo.unserialize_serialize (v : FullValidatorInfo κ) :
    v.unserialize SHA3_256 dns_lookup_function (v.serialize SHA3_256) =
      { v with lastKnownAddress :=
          lookupNumeric SHA3_256 dns_lookup_function (v.lastKnownAddress.toStringAddrPort SHA3_256) 18888 } := by
  rw [FullValidatorInfo.unserialize, FullValidatorInfo.serialize,
    readAddress_of_ne_nil SHA3_256 dns_lookup_function (v.lastKnownAddress.toStringAddrPort_ne_nil SHA3_256)]

theorem FullValidatorInfo.unserialize_serialize_eq_iff (v : FullValidatorInfo κ) :
    v.unserialize SHA3_256 dns_lookup_function (v.serialize SHA3_256) = v ↔
      lookupNumeric SHA3_256 dns_lookup_function (v.lastKnownAddress.toStringAddrPort SHA3_256) 18888 =
        v.lastKnownAddress := by
  rw [FullValidatorInfo.unserialize_serialize]
  constructor
  · intro h
    exact congrArg FullValidatorInfo.lastKnownAddress h
  · intro h
    rw [h]

theorem FullHeartbeat.unserialize_serialize (hb : FullHeartbeat κ σ) :
    hb.unserialize SHA3_256 dns_lookup_function (hb.serialize SHA3_256) =
      { hb with nodeAddress :=
          lookupNumeric SHA3_256 dns_lookup_function (hb.nodeAddress.toStringAddrPort SHA3_256) 18888 } := by
  rw [FullHeartbeat.unserialize, FullHeartbeat.serialize,
    readAddress_of_ne_nil SHA3_256 dns_lookup_function (hb.nodeAddress.toStringAddrPort_ne_nil SHA3_256)]

theorem FullHeartbeat.unserialize_serialize_eq_iff (hb : FullHeartbeat κ σ) :
    hb.unserialize SHA3_256 dns_lookup_function (hb.serialize SHA3_256) = hb ↔
      lookupNumeric SHA3_256 dns_lookup_function (hb.nodeAddress.toStringAddrPort SHA3_256) 18888 = hb.nodeAddress := by
  rw [FullHeartbeat.unserialize_serialize]
  constructor
  · intro h
    exact congrArg FullHeartbeat.nodeAddress h
  · intro h
    rw [h]

/-- A relayed heartbeat hashes as the original exactly when the address read back is written as the original's. -/
theorem FullHeartbeat.hashInput_unserialize_serialize (hb : FullHeartbeat κ σ) :
    (hb.unserialize SHA3_256 dns_lookup_function (hb.serialize SHA3_256)).hashInput SHA3_256 =
        hb.hashInput SHA3_256 ↔
      (lookupNumeric SHA3_256 dns_lookup_function (hb.nodeAddress.toStringAddrPort SHA3_256) 18888).toStringAddrPort
        SHA3_256 = hb.nodeAddress.toStringAddrPort SHA3_256 := by
  rw [FullHeartbeat.unserialize_serialize]
  simp [FullHeartbeat.hashInput]

/-! ### The peers file read back -/

theorem findSubstr_append (pattern rest : List Char) : findSubstr pattern (pattern ++ rest) = some 0 := by
  simp [findSubstr, List.range_succ_eq_map]

/-- `dropWhile` leaves a list whose first element fails the test. -/
theorem dropWhile_of_head {p : Char → Bool} : ∀ {l : List Char}, (∀ c ∈ l.head?, p c = false) → l.dropWhile p = l
  | [], _ => rfl
  | c :: _, h => by rw [List.dropWhile_cons, if_neg (by simp [h c rfl])]

/-- A text with no blank, tab or line end is its own trim. -/
theorem trimAddr_of_not_blank {addrStr : List Char} (h : ∀ c ∈ addrStr, c ∉ [' ', '\t', '\r', '\n']) :
    trimAddr addrStr = addrStr := by
  have hfront : addrStr.dropWhile (· ∈ [' ', '\t']) = addrStr := dropWhile_of_head fun c hc => by
    have hc := h c (List.mem_of_mem_head? hc)
    simp_all
  have hback : addrStr.reverse.dropWhile (· ∈ [' ', '\t', '\r', '\n']) = addrStr.reverse :=
    dropWhile_of_head fun c hc => by
      have hc := h c (List.mem_reverse.1 (List.mem_of_mem_head? hc))
      simpa using hc
  rw [trimAddr, hfront, hback, List.reverse_reverse]

theorem loadPeerLine_of_skipped {peers : List CService} {line : List Char} (h : line = [] ∨ line.head? = some '#') :
    loadPeerLine SHA3_256 dns_lookup_function peers line = peers := by
  rw [loadPeerLine, if_pos h]

/-- An `addnode=` line of a trimmed text reads that text. -/
theorem loadPeerLine_addnode {peers : List CService} {addrStr : List Char} (hne : addrStr ≠ [])
    (htrim : trimAddr addrStr = addrStr) :
    loadPeerLine SHA3_256 dns_lookup_function peers ("addnode=".toList ++ addrStr) =
      insertParsedPeer SHA3_256 dns_lookup_function peers addrStr := by
  have hkept : ¬("addnode=".toList ++ addrStr = [] ∨ ("addnode=".toList ++ addrStr).head? = some '#') := by
    simp
  rw [loadPeerLine, if_neg hkept, findSubstr_append]
  simp [htrim, hne]

/-- What `LoadPeersFromConfig` reads from the file `SavePeersToConfig` wrote: each peer's text, in order, read by
`LookupNumeric` and kept when valid. -/
theorem loadPeersFromConfig_savePeersToConfig (knownValidatorPeers peers : List CService) :
    loadPeersFromConfig SHA3_256 dns_lookup_function (savePeersToConfig SHA3_256 knownValidatorPeers) peers =
      knownValidatorPeers.foldl
        (fun peers s => insertParsedPeer SHA3_256 dns_lookup_function peers (s.toStringAddrPort SHA3_256)) peers := by
  rw [loadPeersFromConfig, savePeersToConfig, List.foldl_append, List.foldl_map]
  -- the header is three comments and an empty line
  simp only [List.foldl_cons, List.foldl_nil]
  rw [loadPeerLine_of_skipped _ _ (Or.inl rfl), loadPeerLine_of_skipped _ _ (Or.inr rfl),
    loadPeerLine_of_skipped _ _ (Or.inr rfl), loadPeerLine_of_skipped _ _ (Or.inr rfl)]
  apply List.foldl_ext
  intro peers s _
  exact loadPeerLine_addnode SHA3_256 dns_lookup_function (s.toStringAddrPort_ne_nil SHA3_256)
    (trimAddr_of_not_blank (s.not_blank_of_mem_toStringAddrPort SHA3_256))

/-- Inserting peers none of which equals another, or one already there, appends them. -/
theorem foldl_insertPeer_of_distinct : ∀ {rest acc : List CService}, rest.Pairwise (fun a b => a.equals b = false) →
    (∀ a ∈ acc, ∀ b ∈ rest, a.equals b = false) → rest.foldl insertPeer acc = acc ++ rest
  | [], acc, _, _ => by simp
  | b :: rest, acc, hpair, hacc => by
    obtain ⟨hb, hrest⟩ := List.pairwise_cons.1 hpair
    have hnew : insertPeer acc b = acc ++ [b] := by
      rw [insertPeer, if_neg]
      simpa using fun a ha => hacc a ha b List.mem_cons_self
    have hacc' : ∀ a ∈ acc ++ [b], ∀ c ∈ rest, a.equals c = false := by
      intro a ha c hc
      rcases List.mem_append.1 ha with ha | ha
      · exact hacc a ha c (List.mem_cons_of_mem b hc)
      · rw [List.mem_singleton.1 ha]
        exact hb c hc
    rw [List.foldl_cons, hnew, foldl_insertPeer_of_distinct hrest hacc', List.append_assoc, List.singleton_append]

section Relayed

variable {peers : List CService}
  (hread : ∀ s ∈ peers, lookupNumeric SHA3_256 dns_lookup_function (s.toStringAddrPort SHA3_256) 18888 = s)
include hread

/-- **Services that `LookupNumeric` reads back from their own text relay exactly**: every `ValidatorInfo` and
`Heartbeat` holding one reads back as itself. -/
theorem records_relayed_of_lookupNumeric :
    (∀ v : FullValidatorInfo κ, v.lastKnownAddress ∈ peers →
      v.unserialize SHA3_256 dns_lookup_function (v.serialize SHA3_256) = v) ∧
      (∀ hb : FullHeartbeat κ σ, hb.nodeAddress ∈ peers →
        hb.unserialize SHA3_256 dns_lookup_function (hb.serialize SHA3_256) = hb) :=
  ⟨fun v hv => (FullValidatorInfo.unserialize_serialize_eq_iff SHA3_256 dns_lookup_function v).2 (hread _ hv),
    fun hb hhb => (FullHeartbeat.unserialize_serialize_eq_iff SHA3_256 dns_lookup_function hb).2 (hread _ hhb)⟩

/-- A peers file of valid services that `LookupNumeric` reads back, none equal to another, reads back as the same
peers in the same order. -/
theorem peersFile_relayed_of_lookupNumeric (hvalid : ∀ s ∈ peers, s.isValid = true)
    (hdistinct : peers.Pairwise fun a b => a.equals b = false) :
    loadPeersFromConfig SHA3_256 dns_lookup_function (savePeersToConfig SHA3_256 peers) [] = peers := by
  -- each line of the file inserts its own peer
  have hinsert : ∀ acc, ∀ s ∈ peers,
      insertParsedPeer SHA3_256 dns_lookup_function acc (s.toStringAddrPort SHA3_256) = insertPeer acc s := by
    intro acc s hs
    simp only [insertParsedPeer, hread s hs, hvalid s hs, if_true]
  rw [loadPeersFromConfig_savePeersToConfig, List.foldl_ext _ _ _ hinsert,
    foldl_insertPeer_of_distinct hdistinct (by simp), List.nil_append]

end Relayed

/-! ### CJDNS addresses come back as IPv6 -/

/-- **A CJDNS address does not survive the trip through its text.**  For every valid CJDNS service, and a resolver
that reads the IPv6 text of its bytes as those bytes: `LookupNumeric` gives back the IPv6 service with the same bytes;
a `ValidatorInfo` or a `Heartbeat` holding the address reads back as a different record, the heartbeat with the same
hash; and the peers file holds the IPv6 service in its place. -/
theorem cjdns_address_relayed_as_ipv6 {s : CService} (hnet : s.m_net = .NET_CJDNS) (hvalid : s.isValid = true)
    (hport : s.port < 2 ^ 16)
    (hdns : dns_lookup_function (ipv6ToString s.m_addr 0) false = [CNetAddr.ofIn6Addr s.m_addr 0]) :
    lookupNumeric SHA3_256 dns_lookup_function (s.toStringAddrPort SHA3_256) 18888 =
        { s with m_net := .NET_IPV6, m_scope_id := 0 } ∧
      (∀ v : FullValidatorInfo κ, v.lastKnownAddress = s →
        v.unserialize SHA3_256 dns_lookup_function (v.serialize SHA3_256) ≠ v) ∧
      (∀ hb : FullHeartbeat κ σ, hb.nodeAddress = s →
        hb.unserialize SHA3_256 dns_lookup_function (hb.serialize SHA3_256) ≠ hb ∧
          (hb.unserialize SHA3_256 dns_lookup_function (hb.serialize SHA3_256)).hashInput SHA3_256 =
            hb.hashInput SHA3_256) ∧
      loadPeersFromConfig SHA3_256 dns_lookup_function (savePeersToConfig SHA3_256 [s]) [] =
        [{ s with m_net := .NET_IPV6, m_scope_id := 0 }] := by
  have hfc := CNetAddr.hasCJDNSPrefix_of_isValid hnet hvalid
  have hread := lookupNumeric_cjdns SHA3_256 dns_lookup_function hnet (by simp [CNetAddr.hasCJDNSPrefix, hfc])
    hport 18888 hdns
  -- what comes back is on another network
  have hne : ({ s with m_net := .NET_IPV6, m_scope_id := 0 } : CService) ≠ s := fun h => by
    have hnet' := congrArg (·.m_net) h
    simp [hnet] at hnet'
  refine ⟨hread, ?_, ?_, ?_⟩
  · intro v hv hrelay
    rw [FullValidatorInfo.unserialize_serialize_eq_iff, hv, hread] at hrelay
    exact hne hrelay
  · intro hb hhb
    refine ⟨fun hrelay => ?_, ?_⟩
    · rw [FullHeartbeat.unserialize_serialize_eq_iff, hhb, hread] at hrelay
      exact hne hrelay
    · rw [FullHeartbeat.hashInput_unserialize_serialize, hhb, hread]
      exact CService.toStringAddrPort_ipv6_of_cjdns SHA3_256 hnet
  · have hvalid' : ({ s with m_net := .NET_IPV6, m_scope_id := 0 } : CService).isValid = true :=
      CNetAddr.isValid_ipv6_of_cjdns hfc
    rw [loadPeersFromConfig_savePeersToConfig]
    simp [insertParsedPeer, hread, hvalid', insertPeer]

/-- `fc00::1` on the CJDNS network, at the default port. -/
def cjdnsService : CService :=
  { m_net := .NET_CJDNS, m_addr := 0xFC :: List.replicate 14 0 ++ [1], port := 18888 }

/-- A resolver that reads the IPv6 text `fc00::1`, as `getaddrinfo` does, and nothing else. -/
def cjdnsTextResolver : DNSLookupFn := fun name _ =>
  if name = "fc00::1".toList then [CNetAddr.ofIn6Addr cjdnsService.m_addr 0] else []

/-- `[fc00::1]:18888` on CJDNS is read back, and reloaded from the peers file, as `[fc00::1]:18888` on IPv6. -/
theorem cjdns_address_relayed_as_ipv6_at_fc00 :
    cjdnsService.m_net = .NET_CJDNS ∧ cjdnsService.isValid = true ∧ cjdnsService.port < 2 ^ 16 ∧
      cjdnsTextResolver (ipv6ToString cjdnsService.m_addr 0) false = [CNetAddr.ofIn6Addr cjdnsService.m_addr 0] ∧
      cjdnsService.toStringAddrPort (fun _ => []) = "[fc00::1]:18888".toList ∧
      lookupNumeric (fun _ => []) cjdnsTextResolver (cjdnsService.toStringAddrPort (fun _ => [])) 18888 =
        { cjdnsService with m_net := .NET_IPV6, m_scope_id := 0 } ∧
      loadPeersFromConfig (fun _ => []) cjdnsTextResolver (savePeersToConfig (fun _ => []) [cjdnsService]) [] =
        [{ cjdnsService with m_net := .NET_IPV6, m_scope_id := 0 }] :=
  have hrelay := @cjdns_address_relayed_as_ipv6 Nat Nat (fun _ => []) cjdnsTextResolver cjdnsService rfl (by decide)
    (by decide) (by decide)
  ⟨rfl, by decide, by decide, by decide, by decide, hrelay.1, hrelay.2.2.2⟩

/-! ### IPv6 addresses come back as they were -/

/-- `2a01::1` on IPv6, at the default port. -/
def ipv6Service : CService := { m_addr := 0x2A :: 0x01 :: List.replicate 13 0 ++ [1], port := 18888 }

/-- A resolver that reads the IPv6 text `2a01::1`, as `getaddrinfo` does, and nothing else. -/
def ipv6TextResolver : DNSLookupFn := fun name _ =>
  if name = "2a01::1".toList then [CNetAddr.ofIn6Addr ipv6Service.m_addr 0] else []

/-- `1.2.3.4` on IPv4, at the default port. -/
def ipv4Service : CService := { m_net := .NET_IPV4, m_addr := [1, 2, 3, 4], port := 18888 }

/-- A resolver that reads the IPv4 text `1.2.3.4`, as `getaddrinfo` does, and nothing else. -/
def ipv4TextResolver : DNSLookupFn := fun name _ =>
  if name = "1.2.3.4".toList then [CNetAddr.ofInAddr ipv4Service.m_addr] else []

/-- **Tor v3 and I2P addresses survive the trip through their text, whatever the resolver.**  For services on Tor
with a 32-byte key or on I2P with a 32-byte hash, without a scope, at a `uint16_t` port, and a SHA3-256 whose digests
hold the two checksum bytes: every `ValidatorInfo` and `Heartbeat` holding one reads back as itself, and a peers file
of them, none equal to another, reads back as the same peers in the same order. -/
theorem onion_i2p_address_relayed_exactly {peers : List CService} (hsha : ∀ x, 2 ≤ (SHA3_256 x).length)
    (hpeers : ∀ s ∈ peers, (s.m_net = .NET_ONION ∧ s.m_addr.length = ADDR_TORV3_SIZE ∨
      s.m_net = .NET_I2P ∧ s.m_addr.length = ADDR_I2P_SIZE) ∧ s.m_scope_id = 0 ∧ s.port < 2 ^ 16)
    (hdistinct : peers.Pairwise fun a b => a.equals b = false) :
    (∀ v : FullValidatorInfo κ, v.lastKnownAddress ∈ peers →
      v.unserialize SHA3_256 dns_lookup_function (v.serialize SHA3_256) = v) ∧
      (∀ hb : FullHeartbeat κ σ, hb.nodeAddress ∈ peers →
        hb.unserialize SHA3_256 dns_lookup_function (hb.serialize SHA3_256) = hb) ∧
      loadPeersFromConfig SHA3_256 dns_lookup_function (savePeersToConfig SHA3_256 peers) [] = peers := by
  have hread : ∀ s ∈ peers, lookupNumeric SHA3_256 dns_lookup_function (s.toStringAddrPort SHA3_256) 18888 = s := by
    intro s hs
    obtain ⟨⟨hnet, hlen⟩ | ⟨hnet, hlen⟩, hscope, hport⟩ := hpeers s hs
    · exact lookupNumeric_onion SHA3_256 dns_lookup_function hnet hlen hscope hport hsha 18888
    · exact lookupNumeric_i2p SHA3_256 dns_lookup_function hnet hlen hscope hport 18888
  -- Tor and I2P addresses are always valid
  have hvalid : ∀ s ∈ peers, s.isValid = true := by
    intro s hs
    obtain ⟨⟨hnet, -⟩ | ⟨hnet, -⟩, -⟩ := hpeers s hs
    · exact CNetAddr.isValid_of_onion_or_i2p (Or.inl hnet)
    · exact CNetAddr.isValid_of_onion_or_i2p (Or.inr hnet)
  obtain ⟨hinfo, hbeat⟩ := records_relayed_of_lookupNumeric SHA3_256 dns_lookup_function hread
  exact ⟨hinfo, hbeat, peersFile_relayed_of_lookupNumeric SHA3_256 dns_lookup_function hread hvalid hdistinct⟩

/-- A Tor v3 key of 32 zero bytes, at the default port. -/
def onionService : CService := { m_net := .NET_ONION, m_addr := List.replicate 32 0, port := 18888 }

/-- An I2P hash of 32 bytes of one, at the default port. -/
def i2pService : CService := { m_net := .NET_I2P, m_addr := List.replicate 32 1, port := 18888 }

/-- A stand-in for SHA3-256 with digests of its length. -/
def zeroDigest (_ : List UInt8) : List UInt8 := List.replicate 32 0

theorem onion_i2p_address_relayed_exactly_at_zero :
    (∀ x, 2 ≤ (zeroDigest x).length) ∧
      (∀ s ∈ [onionService, i2pService], (s.m_net = .NET_ONION ∧ s.m_addr.length = ADDR_TORV3_SIZE ∨
        s.m_net = .NET_I2P ∧ s.m_addr.length = ADDR_I2P_SIZE) ∧ s.m_scope_id = 0 ∧ s.port < 2 ^ 16) ∧
      [onionService, i2pService].Pairwise (fun a b => a.equals b = false) ∧
      i2pService.toStringAddrPort zeroDigest =
        ("aeaqcaibaeaqcaibaeaqcaibaeaqcaibaeaqcaibaeaqcaibaeaq.b32.i2p:18888").toList ∧
      loadPeersFromConfig zeroDigest (fun _ _ => []) (savePeersToConfig zeroDigest [onionService, i2pService]) [] =
        [onionService, i2pService] :=
  have hsha : ∀ x, 2 ≤ (zeroDigest x).length := fun _ => by simp [zeroDigest]
  ⟨hsha, by decide, by decide, by decide +kernel,
    (@onion_i2p_address_relayed_exactly Nat Nat zeroDigest (fun _ _ => []) [onionService, i2pService] hsha
      (by decide) (by decide)).2.2⟩

end Relay

end Trust
end Wattx
