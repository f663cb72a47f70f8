import KernelBypass.Common.ParsingHelpers
import Mathlib.Data.Vector.Basic

namespace KernelBypass.Common.HeaderEncoding

open Foundation Buffer Access Linux ParsingHelpers

section Encoding

abbrev Bytes (n : ℕ) := List.Vector UInt8 n

def be16 (v : UInt16) : List UInt8 := ByteOrder.big.bytes16 v

def be32 (v : UInt32) : List UInt8 := be16 (v >>> 16).toUInt16 ++ be16 v.toUInt16

/-- Options of an IPv4 or TCP header, at most as many as the four bits of its length
field can count. -/
structure Options where
  bytes : List UInt8
  words : bytes.length % 4 = 0
  fits : bytes.length ≤ 40

inductive Tpid
  | dot1Q
  | dot1AD

def Tpid.value : Tpid → UInt16
  | dot1Q => ethP8021Q
  | dot1AD => ethP8021AD

structure VlanTag where
  tpid : Tpid
  tci : UInt16

def VlanTag.encode (tag : VlanTag) : List UInt8 := be16 tag.tpid.value ++ be16 tag.tci

structure Ipv4Header where
  tos : UInt8
  totLen : UInt16
  id : UInt16
  fragOff : UInt16
  ttl : UInt8
  protocol : UInt8
  check : UInt16
  saddr : UInt32
  daddr : UInt32
  options : Options

def Ipv4Header.encode (h : Ipv4Header) : List UInt8 :=
  [UInt8.ofNat (0x45 + h.options.bytes.length / 4), h.tos] ++ be16 h.totLen ++ be16 h.id ++
    be16 h.fragOff ++ [h.ttl, h.protocol] ++ be16 h.check ++ be32 h.saddr ++ be32 h.daddr ++
    h.options.bytes

structure Ipv6Header where
  versionClassLabel : UInt32
  payloadLen : UInt16
  nexthdr : UInt8
  hopLimit : UInt8
  saddr : Bytes 16
  daddr : Bytes 16

def Ipv6Header.encode (h : Ipv6Header) : List UInt8 :=
  be32 h.versionClassLabel ++ be16 h.payloadLen ++ [h.nexthdr, h.hopLimit] ++ h.saddr.toList ++
    h.daddr.toList

inductive NetworkHeader
  | ipv4 (h : Ipv4Header)
  | ipv6 (h : Ipv6Header)

namespace NetworkHeader

def etherType : NetworkHeader → UInt16
  | ipv4 _ => ethPIp
  | ipv6 _ => ethPIpv6

def protocol : NetworkHeader → UInt8
  | ipv4 h => h.protocol
  | ipv6 h => h.nexthdr

def encode : NetworkHeader → List UInt8
  | ipv4 h => h.encode
  | ipv6 h => h.encode

end NetworkHeader

structure UdpHeader where
  source : UInt16
  dest : UInt16
  len : UInt16
  check : UInt16
  covered : 8 ≤ len.toNat

def UdpHeader.encode (h : UdpHeader) : List UInt8 :=
  be16 h.source ++ be16 h.dest ++ be16 h.len ++ be16 h.check

structure TcpHeader where
  source : UInt16
  dest : UInt16
  seq : UInt32
  ackSeq : UInt32
  reserved : Fin 16
  flags : UInt8
  window : UInt16
  check : UInt16
  urgPtr : UInt16
  options : Options

def TcpHeader.encode (h : TcpHeader) : List UInt8 :=
  be16 h.source ++ be16 h.dest ++ be32 h.seq ++ be32 h.ackSeq ++
    [UInt8.ofNat (16 * (5 + h.options.bytes.length / 4) + h.reserved.val), h.flags] ++
    be16 h.window ++ be16 h.check ++ be16 h.urgPtr ++ h.options.bytes

/-- ICMP and ICMPv6 headers have one layout. -/
structure IcmpHeader where
  type : UInt8
  code : UInt8
  checksum : UInt16
  rest : UInt32

def IcmpHeader.encode (h : IcmpHeader) : List UInt8 :=
  [h.type, h.code] ++ be16 h.checksum ++ be32 h.rest

inductive TransportHeader
  | udp (h : UdpHeader)
  | tcp (h : TcpHeader)
  | icmp (h : IcmpHeader)
  | icmp6 (h : IcmpHeader)

namespace TransportHeader

def encode : TransportHeader → List UInt8
  | udp h => h.encode
  | tcp h => h.encode
  | icmp h | icmp6 h => h.encode

/-- What the header's parser tells: the payload length of UDP, the header length of
TCP, the type of ICMP. -/
def told : TransportHeader → ℤ
  | udp h => h.len.toNat - 8
  | tcp h => (20 + h.options.bytes.length : ℕ)
  | icmp h | icmp6 h => h.type.toNat

end TransportHeader

end Encoding

structure HeaderStack (vlanMaxDepth : ℕ) where
  dest : Bytes 6
  source : Bytes 6
  tags : List VlanTag
  depth : tags.length ≤ vlanMaxDepth
  network : NetworkHeader
  transport : TransportHeader
  payload : List UInt8

variable {vlanMaxDepth : ℕ}

namespace HeaderStack

def macs (s : HeaderStack vlanMaxDepth) : List UInt8 := s.dest.toList ++ s.source.toList

def ethernet (s : HeaderStack vlanMaxDepth) : List UInt8 :=
  s.macs ++ (s.tags.flatMap VlanTag.encode ++ be16 s.network.etherType)

def encode (s : HeaderStack vlanMaxDepth) : Frame :=
  s.ethernet ++ (s.network.encode ++ (s.transport.encode ++ s.payload))

end HeaderStack

section Parsing

variable (order : ByteOrder)

def NetworkHeader.parse (nh : ℕ) : NetworkHeader → XdpProgram Parsed
  | ipv4 _ => parseIphdr nh
  | ipv6 _ => parseIp6hdr nh

def TransportHeader.parse (nh : ℕ) : TransportHeader → XdpProgram Parsed
  | udp _ => parseUdphdr order nh
  | tcp _ => parseTcphdr nh
  | icmp _ => parseIcmphdr nh
  | icmp6 _ => parseIcmp6hdr nh

/-- The chain of parsers that fits the headers of `s`, from the first byte. -/
def HeaderStack.parse (s : HeaderStack vlanMaxDepth) (vlans : CollectVlans) :
    XdpProgram ((Parsed × CollectVlans) × Parsed × Parsed) := do
  let eth ← parseEthhdrVlan order vlanMaxDepth 0 vlans
  let network ← s.network.parse eth.1.pos
  let transport ← s.transport.parse order network.pos
  return (eth, network, transport)

end Parsing

section Tags

variable {order : ByteOrder}

@[simp] theorem length_be16 (v : UInt16) : (be16 v).length = 2 := rfl

@[simp] theorem length_be32 (v : UInt32) : (be32 v).length = 4 := rfl

theorem wordAt_be16 (order : ByteOrder) (pre rest : List UInt8) (v : UInt16) :
    wordAt order (pre ++ (be16 v ++ rest)) pre.length = bpfHtons order v := by
  have hhi : cell (pre ++ (be16 v ++ rest)) pre.length = UInt8.ofNat (v.toNat / 256) :=
    cell_append_right pre _ 0
  rw [wordAt, cell_append_right, hhi]
  exact order.word16_high_low v

theorem Tpid.isVlan (tpid : Tpid) : protoIsVlan order (bpfHtons order tpid.value) = true := by
  cases tpid <;> cases order <;> decide

theorem NetworkHeader.not_vlan (order : ByteOrder) (h : NetworkHeader) :
    protoIsVlan order (bpfHtons order h.etherType) = false := by
  cases h with
  | ipv4 h => exact not_vlan_of_ip
  | ipv6 h =>
    change protoIsVlan order (bpfHtons order ethPIpv6) = false
    cases order <;> decide

theorem length_tags (tags : List VlanTag) :
    (tags.flatMap VlanTag.encode).length = 4 * tags.length := by
  induction tags with
  | nil => rfl
  | cons tag tags ih =>
    have htag : tag.encode.length = 4 := rfl
    rw [List.flatMap_cons, List.length_append, ih, htag, List.length_cons]
    omega

theorem skippedIds_tags {type : UInt16} (htype : protoIsVlan order (bpfHtons order type) = false)
    (rest : List UInt8) {tags : List VlanTag} {n : ℕ} (hn : tags.length ≤ n) (pre : List UInt8) :
    skippedIds order (pre ++ (tags.flatMap VlanTag.encode ++ (be16 type ++ rest))) n pre.length =
      tags.map (·.tci &&& vlanVidMask) := by
  induction tags generalizing n pre with
  | nil => exact skippedIds_of_not_vlan (by rw [List.flatMap_nil, List.nil_append, wordAt_be16, htype])
  | cons tag tags ih =>
    obtain ⟨n, rfl⟩ : ∃ m, n = m + 1 := ⟨n - 1, by rw [List.length_cons] at hn; omega⟩
    obtain ⟨tail, htail⟩ : ∃ tail, tags.flatMap VlanTag.encode ++ (be16 type ++ rest) = tail := ⟨_, rfl⟩
    have hlen : 2 ≤ tail.length := by
      rw [← htail, List.length_append, List.length_append, length_be16]
      omega
    have hframe : pre ++ ((tag :: tags).flatMap VlanTag.encode ++ (be16 type ++ rest)) =
        pre ++ (be16 tag.tpid.value ++ (be16 tag.tci ++ tail)) := by
      rw [← htail, List.flatMap_cons, VlanTag.encode, List.append_assoc, List.append_assoc]
    have hrest := ih (Nat.le_of_succ_le_succ hn) (pre ++ tag.encode)
    have hid : vlanId order (pre ++ (be16 tag.tpid.value ++ (be16 tag.tci ++ tail))) (pre.length + 2) =
        tag.tci &&& vlanVidMask := by
      have hword := wordAt_be16 order (pre ++ be16 tag.tpid.value) tail tag.tci
      rw [List.append_assoc, List.length_append, length_be16] at hword
      rw [vlanId, hword, bpfNtohs, bpfHtons, ByteOrder.toBig16_toBig16]
    rw [htail, VlanTag.encode, List.append_assoc, List.append_assoc, List.length_append] at hrest
    rw [hframe, skippedIds, if_pos, hid, List.map_cons]
    · exact congrArg _ hrest
    · refine ⟨by rw [wordAt_be16, tag.tpid.isVlan], ?_⟩
      simp only [List.length_append, length_be16]
      omega

end Tags

section Headers

variable {order : ByteOrder}

theorem Options.length_div (o : Options) : 4 * (o.bytes.length / 4) = o.bytes.length := by
  have := o.words
  omega

theorem Ipv4Header.length_encode (h : Ipv4Header) :
    h.encode.length = 20 + h.options.bytes.length := by
  simp only [encode, List.length_append, List.length_cons, List.length_nil, length_be16, length_be32]

theorem Ipv4Header.ihl_encode (h : Ipv4Header) :
    Iphdr.ihl (cell h.encode 0) = 5 + h.options.bytes.length / 4 := by
  have hfits := h.options.fits
  change (UInt8.ofNat (0x45 + h.options.bytes.length / 4)).toNat % 16 = _
  rw [UInt8.toNat_ofNat']
  omega

theorem TcpHeader.length_encode (h : TcpHeader) :
    h.encode.length = 20 + h.options.bytes.length := by
  simp only [encode, List.length_append, List.length_cons, List.length_nil, length_be16, length_be32]

theorem TcpHeader.doff_encode (h : TcpHeader) :
    Tcphdr.doff (cell h.encode 12) = 5 + h.options.bytes.length / 4 := by
  have hfits := h.options.fits
  have hres := h.reserved.isLt
  change (UInt8.ofNat (16 * (5 + h.options.bytes.length / 4) + h.reserved.val)).toNat / 16 = _
  rw [UInt8.toNat_ofNat']
  omega

theorem Ipv6Header.length_encode (h : Ipv6Header) : h.encode.length = 40 := by
  simp only [encode, List.length_append, List.length_cons, List.length_nil, length_be16, length_be32,
    List.Vector.toList_length]

/-- A field of a header that stands between other bytes. -/
theorem cell_header {header : List UInt8} {k : ℕ} (hk : k < header.length) (pre rest : List UInt8) :
    cell (pre ++ (header ++ rest)) (pre.length + k) = cell header k := by
  rw [cell_append_right, cell_append_left hk]

theorem parseFixed_encode {size field : ℕ} {header : List UInt8} (hsize : header.length = size)
    (hf : field < size) (pre rest : List UInt8) :
    parseFixed size field pre.length (pre ++ (header ++ rest)) =
      .ok (⟨(cell header field).toNat, pre.length + header.length, some pre.length⟩,
        pre ++ (header ++ rest)) := by
  have hfit : pre.length + size ≤ (pre ++ (header ++ rest)).length := by
    rw [List.length_append, List.length_append, hsize]
    omega
  rw [parseFixed_run hf, if_pos hfit, cell_header (by omega), hsize]

theorem NetworkHeader.parse_encode (h : NetworkHeader) (pre rest : List UInt8) :
    h.parse pre.length (pre ++ (h.encode ++ rest)) =
      .ok (⟨h.protocol.toNat, pre.length + h.encode.length, some pre.length⟩,
        pre ++ (h.encode ++ rest)) := by
  cases h with
  | ipv4 h =>
    have hlen := h.length_encode
    have hdiv := h.options.length_div
    have hfirst : cell (pre ++ (h.encode ++ rest)) pre.length = cell h.encode 0 :=
      cell_header (show 0 < h.encode.length by omega) pre rest
    have hproto : cell (pre ++ (h.encode ++ rest)) (pre.length + 9) = cell h.encode 9 :=
      cell_header (by omega) pre rest
    change parseIphdr pre.length (pre ++ (h.encode ++ rest)) = _
    rw [parseIphdr_run, hfirst, h.ihl_encode, hproto, if_pos]
    · have hsize : pre.length + 4 * (5 + h.options.bytes.length / 4) = pre.length + h.encode.length := by
        omega
      rw [hsize]
      rfl
    · simp only [List.length_append]
      omega
  | ipv6 h => exact parseFixed_encode h.length_encode (by decide) pre rest

theorem TransportHeader.parse_encode (h : TransportHeader) (pre rest : List UInt8) :
    h.parse order pre.length (pre ++ (h.encode ++ rest)) =
      .ok (⟨h.told, pre.length + h.encode.length, some pre.length⟩, pre ++ (h.encode ++ rest)) := by
  cases h with
  | udp h =>
    have hcovered := h.covered
    have hlen : h.encode.length = 8 := rfl
    have hfield : netWord (pre ++ (h.encode ++ rest)) (pre.length + 4) = h.len.toNat := by
      rw [netWord, cell_append_right, Nat.add_assoc, cell_append_right]
      change 256 * (UInt8.ofNat (h.len.toNat / 256)).toNat + (UInt8.ofNat (h.len.toNat % 256)).toNat = _
      rw [ByteOrder.toNat_high, ByteOrder.toNat_low, Nat.div_add_mod]
    have hfit : pre.length + 8 ≤ (pre ++ (h.encode ++ rest)).length := by
      rw [List.length_append, List.length_append, hlen]
      omega
    change parseUdphdr order pre.length (pre ++ (h.encode ++ rest)) = _
    rw [parseUdphdr_run, if_pos hfit, hfield, if_neg (by omega)]
    rfl
  | tcp h =>
    have hlen := h.length_encode
    have hdiv := h.options.length_div
    have hdoff : Tcphdr.doff (cell (pre ++ (h.encode ++ rest)) (pre.length + 12)) =
        5 + h.options.bytes.length / 4 := by
      rw [cell_header (by omega), h.doff_encode]
    have hsize : 4 * (5 + h.options.bytes.length / 4) = 20 + h.options.bytes.length := by omega
    change parseTcphdr pre.length (pre ++ (h.encode ++ rest)) = _
    rw [parseTcphdr_run, hdoff, hsize, if_pos]
    · rw [← hlen]
      change _ = Except.ok ((⟨((20 + h.options.bytes.length : ℕ) : ℤ), _, _⟩ : Parsed), _)
      rw [← hlen]
      rfl
    · simp only [List.length_append]
      omega
  | icmp h => exact parseFixed_encode (show h.encode.length = 8 from rfl) (by decide) pre rest
  | icmp6 h => exact parseFixed_encode (show h.encode.length = 8 from rfl) (by decide) pre rest

end Headers

section Chain

variable {order : ByteOrder} (s : HeaderStack vlanMaxDepth)

theorem HeaderStack.length_macs : s.macs.length = 12 := by
  rw [macs, List.length_append, List.Vector.toList_length, List.Vector.toList_length]

theorem HeaderStack.length_ethernet : s.ethernet.length = 14 + 4 * s.tags.length := by
  rw [ethernet, List.length_append, List.length_append, length_macs, length_tags, length_be16]
  omega

theorem HeaderStack.parse_ethernet {ids : List UInt16} (hids : ids.length = vlanMaxDepth)
    (rest : List UInt8) :
    parseEthhdrVlan order vlanMaxDepth 0 (some ids) (s.ethernet ++ rest) =
      .ok ((⟨(bpfHtons order s.network.etherType).toNat, s.ethernet.length, some 0⟩,
        some (s.tags.map (·.tci &&& vlanVidMask) ++ ids.drop s.tags.length)),
        s.ethernet ++ rest) := by
  have hmacs := s.length_macs
  have hlen := s.length_ethernet
  have hfit : 0 + 14 ≤ (s.ethernet ++ rest).length := by
    rw [List.length_append]
    omega
  have hframe : s.ethernet ++ rest =
      s.macs ++ (s.tags.flatMap VlanTag.encode ++ (be16 s.network.etherType ++ rest)) := by
    rw [ethernet, List.append_assoc, List.append_assoc]
  have hskip := skippedIds_tags (s.network.not_vlan order) rest s.depth s.macs
  have htype := wordAt_be16 order (s.macs ++ s.tags.flatMap VlanTag.encode) rest
    s.network.etherType
  rw [List.append_assoc, List.length_append, length_tags, hmacs, ← hframe] at htype
  rw [hmacs, ← hframe] at hskip
  rw [parseEthhdrVlan_run (by simp [hids]), if_pos hfit, Nat.zero_add, Nat.zero_add, hskip,
    List.length_map, htype, hlen]
  simp [overwrite]

end Chain

/-- Every step of the chain succeeds and finds the header where it was placed; behind
the last cursor is the payload. -/
theorem header_stack_parses (order : ByteOrder) (s : HeaderStack vlanMaxDepth)
    (ids : List.Vector UInt16 vlanMaxDepth) :
    s.parse order (some ids.toList) s.encode = .ok
      (((⟨(bpfHtons order s.network.etherType).toNat, 14 + 4 * s.tags.length, some 0⟩,
          some (s.tags.map (·.tci &&& vlanVidMask) ++ ids.toList.drop s.tags.length)),
        ⟨s.network.protocol.toNat, 14 + 4 * s.tags.length + s.network.encode.length,
          some (14 + 4 * s.tags.length)⟩,
        ⟨s.transport.told,
          14 + 4 * s.tags.length + s.network.encode.length + s.transport.encode.length,
          some (14 + 4 * s.tags.length + s.network.encode.length)⟩), s.encode) ∧
      s.encode.drop (14 + 4 * s.tags.length + s.network.encode.length + s.transport.encode.length) =
        s.payload := by
  have heth := s.length_ethernet
  have hframe : s.encode =
      (s.ethernet ++ s.network.encode) ++ (s.transport.encode ++ s.payload) := by
    rw [HeaderStack.encode, List.append_assoc]
  have hethernet : parseEthhdrVlan order vlanMaxDepth 0 (some ids.toList) s.encode = _ :=
    s.parse_ethernet ids.toList_length _
  have hnetwork : s.network.parse s.ethernet.length s.encode = _ :=
    s.network.parse_encode s.ethernet _
  have htransport : s.transport.parse order (s.ethernet ++ s.network.encode).length s.encode = _ :=
    hframe ▸ s.transport.parse_encode (s.ethernet ++ s.network.encode) s.payload
  rw [List.length_append] at htransport
  constructor
  · rw [← heth]
    exact (bind_run hethernet).trans ((bind_run hnetwork).trans ((bind_run htransport).trans
      (pure_run _ _)))
  · rw [hframe, ← List.append_assoc, ← heth, ← List.length_append, ← List.length_append]
    exact List.drop_left

end KernelBypass.Common.HeaderEncoding
