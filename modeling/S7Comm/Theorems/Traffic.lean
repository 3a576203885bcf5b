import S7Comm.Theorems.Frames

/-! TCP traffic as a network carries it: an Ethernet frame, with or without a VLAN tag, that holds an IPv4 packet with a
    TCP packet. Whatever the fields are that the code does not look at, it gets the addresses, the ports, the sequence
    number, the SYN flag and the payload out of the frame. -/

namespace S7Comm.Capture
open Go

/-! ### Endpoints -/

structure Endpoint where
  ip : Bytes
  port : UInt16
  ip_length : ip.length = 4
  deriving DecidableEq

/-- The text of an endpoint, as in a conversation. -/
def Endpoint.text (e : Endpoint) : String := s!"{ipString e.ip}:{e.port}"

theorem colon_not_mem_toDigits (n : Nat) : ':' ∉ Nat.toDigits 10 n := fun h =>
  absurd (Nat.isDigit_of_mem_toDigits (by decide) (by decide) h) (by decide)

theorem colon_not_mem_ipString {ip : Bytes} (h : ip.length = 4) : ':' ∉ (ipString ip).toList := by
  match ip, h with
  | [a, b, c, d], _ =>
    rw [toList_ipString]
    simp [colon_not_mem_toDigits]

/-- Different endpoints have different texts. -/
theorem Endpoint.text_inj {e e' : Endpoint} (h : e.text = e'.text) : e = e' := by
  have htext : ∀ e : Endpoint, e.text.toList = (ipString e.ip).toList ++ ':' :: Nat.toDigits 10 e.port.toNat := by
    intro e
    simp [text, toString]
  have hlist := congrArg String.toList h
  rw [htext, htext] at hlist
  obtain ⟨hip, hport⟩ :=
    append_cons_inj (colon_not_mem_ipString e.ip_length) (colon_not_mem_ipString e'.ip_length) hlist
  have hip' : e.ip = e'.ip := ipString_inj e.ip_length e'.ip_length (String.toList_injective hip)
  have hvalue := congrArg (Nat.ofDigitChars 10 · 0) hport
  simp only [Nat.ofDigitChars_ten_toDigits] at hvalue
  obtain ⟨ip, port, hlen⟩ := e
  obtain ⟨ip', port', hlen'⟩ := e'
  obtain rfl : ip = ip' := hip'
  obtain rfl : port = port' := UInt16.toNat_inj.mp hvalue
  rfl

/-! ### Frames -/

/-- A frame from one endpoint to another. -/
structure TCPFrame where
  src : Endpoint
  dst : Endpoint
  seq : UInt32
  flags : UInt8
  payload : Bytes
  /-- The hardware addresses. -/
  macs : Bytes
  /-- The content of a VLAN tag. -/
  vlan : Option UInt16
  tos : UInt8
  ident : Bytes
  /-- Flags and fragment offset. -/
  fragment : UInt16
  ttl : UInt8
  ipChecksum : Bytes
  ipOptions : Bytes
  ack : Bytes
  reserved : Fin 16
  /-- The window, the checksum and the urgent pointer. -/
  window : Bytes
  tcpOptions : Bytes
  /-- What follows the IPv4 packet, to make the frame long enough. -/
  padding : Bytes
  macs_length : macs.length = 12
  ident_length : ident.length = 2
  ipChecksum_length : ipChecksum.length = 2
  ack_length : ack.length = 4
  window_length : window.length = 6
  ipWords : Fin 11
  ipOptions_length : ipOptions.length = 4 * ipWords
  tcpWords : Fin 11
  tcpOptions_length : tcpOptions.length = 4 * tcpWords
  unfragmented : fragment &&& 0x3FFF = 0
  short : 40 + ipOptions.length + tcpOptions.length + payload.length < 65536

namespace TCPFrame
variable (f : TCPFrame)

/-- The SYN flag. -/
def syn : Bool := f.flags &&& 0x02 != 0

def packet : TCPPacket := ⟨ipString f.src.ip, ipString f.dst.ip, f.src.port, f.dst.port, f.seq, f.syn, f.payload⟩

/-- The length of the TCP header in words of four bytes, over four reserved bits. -/
def offsetByte (words : Fin 11) (reserved : Fin 16) : UInt8 := UInt8.ofNat ((5 + words) * 16 + reserved)

/-- The version of IP, over the length of the header in words of four bytes. -/
def versionByte (words : Fin 11) : UInt8 := UInt8.ofNat (0x45 + words)

def tcp : Bytes :=
  putUint16 f.src.port ++ (putUint16 f.dst.port ++ (putUint32 f.seq ++ (f.ack ++ ([offsetByte f.tcpWords f.reserved] ++
    ([f.flags] ++ (f.window ++ (f.tcpOptions ++ f.payload)))))))

def ipHeader : Nat := 20 + f.ipOptions.length

def ip : Bytes :=
  [versionByte f.ipWords] ++ ([f.tos] ++ (putUint16 (UInt16.ofNat (f.ipHeader + f.tcp.length)) ++ (f.ident ++
    (putUint16 f.fragment ++ ([f.ttl] ++ ([protoTCP] ++ (f.ipChecksum ++ (f.src.ip ++ (f.dst.ip ++
      (f.ipOptions ++ (f.tcp ++ f.padding)))))))))))

def tag : Bytes :=
  match f.vlan with
  | none => []
  | some tci => putUint16 etherVLAN ++ putUint16 tci

def bytes : Bytes := f.macs ++ (f.tag ++ (putUint16 etherIPv4 ++ f.ip))

theorem length_tcp : f.tcp.length = 20 + f.tcpOptions.length + f.payload.length := by
  simp only [tcp, List.length_append, length_putUint16, f.ack_length, f.window_length, putUint32,
    List.length_cons, List.length_nil]
  omega

theorem length_ip : f.ip.length = f.ipHeader + f.tcp.length + f.padding.length := by
  simp only [ip, ipHeader, List.length_append, length_putUint16, f.ident_length, f.ipChecksum_length, f.src.ip_length,
    f.dst.ip_length, List.length_singleton]
  omega

theorem offsetByte_words (words : Fin 11) (reserved : Fin 16) : (offsetByte words reserved >>> 4).toNat = 5 + words := by
  revert words reserved
  decide

theorem versionByte_version (words : Fin 11) : versionByte words >>> 4 = 4 := by
  revert words
  decide

theorem versionByte_words (words : Fin 11) : (versionByte words &&& 0x0F).toNat = 5 + words := by
  revert words
  decide

theorem dwordAt_eq_ok_iff {b : Bytes} {off : Nat} {v : UInt32} : dwordAt b off = .ok v ↔ StandsAt b off (putUint32 v) := by
  have hiff : (ByteOrder.big.uint32At b off : Res UInt32) = .ok v ↔ StandsAt b off (ByteOrder.big.putUint32 v) :=
    ByteOrder.uint32At_eq_ok_iff
  exact hiff

/-! What the reads of the code find. -/

theorem tcpHeader_tcp (src dst : String) :
    tcpHeader src dst f.tcp = .ok (some ⟨src, dst, f.src.port, f.dst.port, f.seq, f.syn, f.payload⟩) := by
  have hlen := f.length_tcp
  have hopt := f.tcpOptions_length
  have hall : StandsAt f.tcp 0 f.tcp := standsAt_zero.mpr ⟨[], (List.append_nil _).symm⟩
  conv at hall => arg 3; rw [tcp]
  simp only [standsAt_append, length_putUint16, putUint32, List.length_cons, List.length_nil, f.ack_length,
    f.window_length] at hall
  obtain ⟨hsport, hdport, hseq, -, hoff, hflags, -, -, hpayload⟩ := hall
  have hsport' : wordAt f.tcp 0 = .ok f.src.port := uint16At_eq_ok_iff.mpr hsport
  have hdport' : wordAt f.tcp 2 = .ok f.dst.port := uint16At_eq_ok_iff.mpr hdport
  have hseq' : dwordAt f.tcp 4 = .ok f.seq := dwordAt_eq_ok_iff.mpr hseq
  have hoff' : indexAt f.tcp 12 = .ok (offsetByte f.tcpWords f.reserved) := index_eq_ok_iff.mpr hoff
  have hflags' : indexAt f.tcp 13 = .ok f.flags := index_eq_ok_iff.mpr hflags
  have hslice : sliceOf f.tcp ((5 + f.tcpWords.val) * 4) f.tcp.length = .ok f.payload := by
    refine slice_eq_ok_iff.mpr ⟨?_, by omega⟩
    rwa [show 0 + 2 + 2 + (0 + 1 + 1 + 1 + 1) + 4 + (0 + 1) + (0 + 1) + 6 + f.tcpOptions.length =
      (5 + f.tcpWords.val) * 4 by omega] at hpayload
  rw [tcpHeader, if_neg (by omega), hsport', Outcome.ok_bind, hdport', Outcome.ok_bind, hoff', Outcome.ok_bind]
  dsimp only
  rw [offsetByte_words, if_neg (by omega), hseq', Outcome.ok_bind, hflags', Outcome.ok_bind, hslice]
  rfl

theorem addressAt_standsAt {d ip : Bytes} {i : Nat} (hip : ip.length = 4) (h : StandsAt d i ip) :
    addressAt d i = .ok (ipString ip) := by
  match ip, hip with
  | [a, b, c, e], _ =>
    obtain ⟨ha, h⟩ := standsAt_cons.mp h
    obtain ⟨hb, h⟩ := standsAt_cons.mp h
    obtain ⟨hc, he⟩ := standsAt_cons.mp h
    have ha' : indexAt d i = .ok a := index_eq_ok_iff.mpr ha
    have hb' : indexAt d (i + 1) = .ok b := index_eq_ok_iff.mpr hb
    have hc' : indexAt d (i + 2) = .ok c := index_eq_ok_iff.mpr hc
    have he' : indexAt d (i + 3) = .ok e := index_eq_ok_iff.mpr he
    rw [addressAt, ha', Outcome.ok_bind, hb', Outcome.ok_bind, hc', Outcome.ok_bind, he']
    rfl

theorem ipv4Payload_ip : ipv4Payload f.ip = .ok (some (ipString f.src.ip, ipString f.dst.ip, f.tcp)) := by
  have hlen := f.length_ip
  have htcp := f.length_tcp
  have hopt := f.ipOptions_length
  have hshort := f.short
  have hall : StandsAt f.ip 0 f.ip := standsAt_zero.mpr ⟨[], (List.append_nil _).symm⟩
  conv at hall => arg 3; rw [ip]
  simp only [standsAt_append, length_putUint16, List.length_cons, List.length_nil, f.ident_length, f.ipChecksum_length,
    f.src.ip_length, f.dst.ip_length] at hall
  obtain ⟨hversion, -, htotal, -, hfragment, -, hproto, -, hsrc, hdst, -, hbody, -⟩ := hall
  have hversion' : indexAt f.ip 0 = .ok (versionByte f.ipWords) := index_eq_ok_iff.mpr hversion
  have htotal' : wordAt f.ip 2 = .ok (UInt16.ofNat (f.ipHeader + f.tcp.length)) := uint16At_eq_ok_iff.mpr htotal
  have hproto' : indexAt f.ip 9 = .ok protoTCP := index_eq_ok_iff.mpr hproto
  have hfragment' : wordAt f.ip 6 = .ok f.fragment := uint16At_eq_ok_iff.mpr hfragment
  have hsrc' : addressAt f.ip 12 = .ok (ipString f.src.ip) := addressAt_standsAt f.src.ip_length hsrc
  have hdst' : addressAt f.ip 16 = .ok (ipString f.dst.ip) := addressAt_standsAt f.dst.ip_length hdst
  have hheader : f.ipHeader = (5 + f.ipWords.val) * 4 := by
    rw [ipHeader]
    omega
  have hbody' : sliceOf f.ip ((5 + f.ipWords.val) * 4) (f.ipHeader + f.tcp.length) = .ok f.tcp := by
    refine slice_eq_ok_iff.mpr ⟨?_, by rw [hheader]⟩
    rwa [show 0 + (0 + 1) + (0 + 1) + 2 + 2 + 2 + (0 + 1) + (0 + 1) + 2 + 4 + 4 + f.ipOptions.length =
      (5 + f.ipWords.val) * 4 by omega] at hbody
  have htoNat : (UInt16.ofNat (f.ipHeader + f.tcp.length)).toNat = f.ipHeader + f.tcp.length :=
    uint16_toNat_ofNat (by rw [ipHeader]; omega)
  rw [ipv4Payload, if_neg (by rw [hlen, hheader]; omega), hversion', Outcome.ok_bind, versionByte_version,
    if_neg (by decide), htotal', Outcome.ok_bind]
  dsimp only
  rw [versionByte_words, htoNat, if_neg (by omega), hproto', Outcome.ok_bind, if_neg (by decide), hfragment',
    Outcome.ok_bind, f.unfragmented, if_neg (by decide), hsrc', Outcome.ok_bind, hdst', Outcome.ok_bind, hbody']
  rfl

theorem etherPayload_bytes : etherPayload f.bytes = .ok (some (etherIPv4, f.ip)) := by
  have hip := f.length_ip
  have hall : StandsAt f.bytes 0 f.bytes := standsAt_zero.mpr ⟨[], (List.append_nil _).symm⟩
  have hlen : f.bytes.length = 14 + f.tag.length + f.ip.length := by
    simp only [bytes, List.length_append, f.macs_length, length_putUint16]
    omega
  conv at hall => arg 3; rw [bytes]
  simp only [standsAt_append, f.macs_length] at hall
  obtain ⟨-, htag, htype, hbody⟩ := hall
  rw [length_putUint16] at hbody
  rw [etherPayload, if_neg (by omega)]
  cases hvlan : f.vlan with
  | none =>
    rw [tag, hvlan, List.length_nil] at htype hbody hlen
    have htype' : wordAt f.bytes 12 = .ok etherIPv4 := uint16At_eq_ok_iff.mpr htype
    have hbody' : sliceOf f.bytes 14 f.bytes.length = .ok f.ip := slice_eq_ok_iff.mpr ⟨hbody, by omega⟩
    rw [htype', Outcome.ok_bind, hbody', Outcome.ok_bind, if_neg (by decide)]
    rfl
  | some tci =>
    rw [tag, hvlan, List.length_append, length_putUint16, length_putUint16] at htype hbody hlen
    rw [tag, hvlan, standsAt_append] at htag
    have htag' : wordAt f.bytes 12 = .ok etherVLAN := uint16At_eq_ok_iff.mpr htag.1
    have hrest : StandsAt f.bytes 14 (putUint16 tci ++ (putUint16 etherIPv4 ++ f.ip)) := by
      simp only [standsAt_append, length_putUint16]
      exact ⟨htag.2, htype, hbody⟩
    have hrest' : sliceOf f.bytes 14 f.bytes.length = .ok (putUint16 tci ++ (putUint16 etherIPv4 ++ f.ip)) :=
      slice_eq_ok_iff.mpr ⟨hrest, by simp only [List.length_append, length_putUint16]; omega⟩
    have htype' : wordAt (putUint16 tci ++ (putUint16 etherIPv4 ++ f.ip)) 2 = .ok etherIPv4 :=
      uint16At_eq_ok_iff.mpr ⟨putUint16 tci, f.ip, rfl, rfl⟩
    have hbody' : sliceOf (putUint16 tci ++ (putUint16 etherIPv4 ++ f.ip)) 4
        (putUint16 tci ++ (putUint16 etherIPv4 ++ f.ip)).length = .ok f.ip :=
      slice_eq_ok_iff.mpr ⟨⟨putUint16 tci ++ putUint16 etherIPv4, [], by simp, rfl⟩, by
        simp only [List.length_append, length_putUint16]
        omega⟩
    rw [htag', Outcome.ok_bind, hrest', Outcome.ok_bind, if_pos rfl, if_neg (by simp; omega), htype', Outcome.ok_bind,
      hbody']
    rfl

/-- A frame is taken for what it is. -/
theorem tcpPacket_bytes : tcpPacket f.bytes = .ok (some f.packet) := by
  rw [tcpPacket, etherPayload_bytes, Outcome.ok_bind]
  dsimp only
  rw [if_neg (by decide), ipv4Payload_ip, Outcome.ok_bind]
  exact f.tcpHeader_tcp _ _

end TCPFrame

end S7Comm.Capture
