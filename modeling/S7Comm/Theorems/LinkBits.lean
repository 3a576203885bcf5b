import S7Comm.Client.Bit
import S7Comm.Theorems.HostileReads
import S7Comm.Theorems.LinkRead
import S7Comm.Theorems.LinkWrite
import S7Comm.Theorems.ParserBounds

/-! Single bits against the server. The client numbers a bit by its byte and its place in it, a request by one number,
    the codec by one number in a byte string; all three mean the same bit of the memory. -/

namespace S7Comm
open Go

/-! ### The item -/

/-- The item of a bit request. -/
def bitSpec (area : UInt8) (db : UInt16) (o k : Nat) : VarSpec :=
  ⟨syntaxIDS7Any, transportSizeBit, 1, db, area, UInt32.ofNat o <<< 3 ||| UInt32.ofNat k⟩

/-- The address of the item as it stands in a request. -/
def bitItem (area : UInt8) (db : UInt16) (o k : Nat) : Bytes :=
  putS7Any transportSizeBit 1 db area (UInt32.ofNat o <<< 3 ||| UInt32.ofNat k)

section Item
variable {area : UInt8} {db : UInt16} {o k : Nat}

/-- Byte and bit share the start address without overlap. -/
theorem bitStart_toNat (ho : o ≤ maxS7AnyByteOffset) (hk : k < 8) :
    (UInt32.ofNat o <<< 3 ||| UInt32.ofNat k).toNat = o * 8 + k := by
  have hshift := Nat.shiftLeft_add_eq_or_of_lt (i := 3) (b := k) hk o
  rw [Nat.shiftLeft_eq] at hshift
  rw [UInt32.toNat_or, startBit_toNat ho, show (UInt32.ofNat k).toNat = k by simp; omega]
  exact hshift.symm

@[simp] theorem length_bitItem : (bitItem area db o k).length = 12 := by
  simp [bitItem, putS7Any, putUint24]

theorem encodeS7AnyBit_eq (area : UInt8) (db : UInt16) (ho : o ≤ maxS7AnyByteOffset) (hk : k < 8) :
    encodeS7AnyBit ⟨area, db.toNat, o, k⟩ = .ok (bitItem area db o k) := by
  have hdb : db.toNat ≤ maxS7AnyDBNumber := Nat.le_of_lt_succ db.toNat_lt
  unfold encodeS7AnyBit
  dsimp only
  rw [if_neg (by omega), if_neg (by omega), if_neg (by omega)]
  simp [bitItem]

theorem validateBitAddress_eq (harea : area = areaInputs ∨ area = areaOutputs ∨ area = areaMerkers ∨ area = areaDB)
    (ho : o ≤ maxS7AnyByteOffset) (hk : k < 8) : validateBitAddress ⟨area, db.toNat, o, k⟩ = .ok () := by
  have hsum : validateS7AnyBitAddress ⟨0, db.toNat, o, k⟩ = .ok () := by
    unfold validateS7AnyBitAddress
    rw [encodeS7AnyBit_eq 0 db ho hk]
    rfl
  have hknown : validateArea area = .ok () := by rcases harea with rfl | rfl | rfl | rfl <;> rfl
  unfold validateBitAddress BitAddress.s7Any
  dsimp only
  rw [if_neg (by omega), if_neg (by omega), if_neg (by omega), hsum, hknown]
  rfl

theorem parseVarSpecs_bitItem (fn : UInt8) (ho : o ≤ maxS7AnyByteOffset) (hk : k < 8) :
    parseVarSpecs ([fn, 1] ++ bitItem area db o k) fn = .ok [bitSpec area db o k] := by
  have ho' : o ≤ 2097151 := ho
  exact parseVarSpecs_putS7Any fn _ _ _ _ (by rw [bitStart_toNat ho hk]; omega)

/-- The data section of a bit request holds one item of one byte. -/
theorem parseWriteVarRequest_bitItem (ho : o ≤ maxS7AnyByteOffset) (hk : k < 8) (payload : UInt8) :
    parseWriteVarRequest ([funcWriteVar, 1] ++ bitItem area db o k)
        [0x00, dataTransportSizeBit, 0x00, 0x01, payload, 0x00] =
      .ok ([bitSpec area db o k], [⟨0x00, dataTransportSizeBit, 1, [payload]⟩]) := by
  have hitems : writeDataItems [0x00, dataTransportSizeBit, 0x00, 0x01, payload, 0x00] 1 0 0 =
      .ok ([⟨0x00, dataTransportSizeBit, 1, [payload]⟩], 5) := rfl
  unfold parseWriteVarRequest
  rw [parseVarSpecs_bitItem funcWriteVar ho hk, Outcome.ok_bind, List.length_singleton, hitems]
  rfl

/-- A bit in range is resolved to its byte and its place. -/
theorem resolve_bitSpec {mem : Memory} {key : AreaKey} {reg : Region} (ho : o ≤ maxS7AnyByteOffset) (hk : k < 8)
    (hplain : Area.timerOrCounter area = false) (hkey : keyOf area db.toNat = .ok key)
    (hreg : mem.regions key = some reg) (hin : o < reg.data.length) :
    resolve mem (bitSpec area db o k) =
      .ok { start := o, bit := k, size := 1, key, reg, isBit := true, transp := transportSizeBit, area } := by
  have hstart : (bitSpec area db o k).startBit.toNat = o * 8 + k := bitStart_toNat ho hk
  have hloc : locate (bitSpec area db o k) reg.data.length = .ok { start := o, bit := k, size := 1 } := by
    have hper : elementSize (bitSpec area db o k).transportSize = 1 := rfl
    have hcount : (bitSpec area db o k).count.toNat = 1 := rfl
    have htc : ((bitSpec area db o k).transportSize == transportTimer ||
        (bitSpec area db o k).transportSize == transportCounter) = false := rfl
    have hbit : ((bitSpec area db o k).transportSize == transportSizeBit) = true := rfl
    have harea : Area.timerOrCounter (bitSpec area db o k).area = false := hplain
    unfold locate
    simp only [hper, hcount, htc, hbit, harea, hstart]
    rw [if_neg (by decide), if_neg (by simp), if_neg (by simp), if_neg (by simp)]
    simp only [Bool.false_eq_true, ↓reduceIte]
    rw [show (o * 8 + k) / 8 = o by omega, show (o * 8 + k) % 8 = k by omega, if_neg (by omega)]
  unfold resolve
  rw [if_neg (by simp [bitSpec])]
  simp only [show keyOf (bitSpec area db o k).area (bitSpec area db o k).dbNumber.toNat = .ok key from hkey, hreg, hloc]
  rfl

end Item

/-! ### Reading a bit -/

/-- The result of a bit item whose byte is `b`. -/
def bitResult (b : UInt8) (k : Nat) : ReadVarResult :=
  ⟨retCodeSuccess, dataTransportSizeBit, 1, [if b.toNat.testBit k then 1 else 0]⟩

section Link
variable (cfg : ServerConfig) {p : Nat} {c : Client} {w : Link} {area : UInt8} {db : UInt16} {key : AreaKey}
  {reg : Region} {o k : Nat}

theorem itemResult_bitSpec {mem : Memory} (ho : o ≤ maxS7AnyByteOffset) (hk : k < 8)
    (hplain : Area.timerOrCounter area = false) (hkey : keyOf area db.toNat = .ok key)
    (hreg : mem.regions key = some reg) (hin : o < reg.data.length) (range : Option (List DBReadArea)) :
    itemResult mem (bitSpec area db o k) range = .ok (bitResult (reg.data.getD o 0) k) := by
  have hsyn : ¬(bitSpec area db o k).syntaxID = syntaxIDDBRead := show ¬syntaxIDS7Any = syntaxIDDBRead by decide
  have hslice : sliceOf reg.data o (o + 1) = .ok [reg.data.getD o 0] := by
    rw [sliceOf_of_le (by omega) (show o + 1 ≤ _ from hin), Nat.add_sub_cancel_left, List.drop_eq_getElem_cons hin,
      List.getD_eq_getElem?_getD, List.getElem?_eq_getElem hin]
    rfl
  unfold itemResult
  rw [if_neg hsyn, resolve_bitSpec ho hk hplain hkey hreg hin]
  unfold readResult
  dsimp only
  rw [hslice, Outcome.ok_bind, if_pos rfl, show indexAt [reg.data.getD o 0] 0 = .ok (reg.data.getD o 0) from rfl,
    Outcome.ok_bind, shiftRight_and_one hk]
  rfl

/-- The client decodes the one bit of the answer. -/
theorem bitAnswer_bitResult (b : UInt8) (k : Nat) :
    bitAnswer [funcReadVar, 1] (readVarResultBytes [bitResult b k]) = .ok (b.toNat.testBit k) := by
  have hone : normalizeResponseDataLength dataTransportSizeBit 1 = .ok 1 := by decide
  have hwf : WellFormed (bitResult b k) := ⟨fun h => absurd rfl h, fun _ _ => hone⟩
  have hparse : parseReadVarResponse [funcReadVar, 1] (readVarResultBytes [bitResult b k]) = .ok [(bitResult b k).item] :=
    parseReadVarResponse_eq (by simp) (by simpa using hwf) (by simp [bitResult])
  have hdecode : decodeAsBit (bitResult b k).item = .ok (b.toNat.testBit k) := by
    unfold bitResult
    cases b.toNat.testBit k <;> rfl
  have hcode : returnCodeError (bitResult b k).item.returnCode = none := rfl
  unfold bitAnswer
  rw [hparse]
  dsimp only
  rw [hcode]
  dsimp only
  rw [hdecode]

theorem bitGate_link (hw : Linked p c w)
    (harea : area = areaInputs ∨ area = areaOutputs ∨ area = areaMerkers ∨ area = areaDB)
    (ho : o ≤ maxS7AnyByteOffset) (hk : k < 8) :
    bitGate (serverNet cfg) ⟨area, db.toNat, o, k⟩ (c, w) = (.ok (), (c, w)) := by
  unfold bitGate
  rw [validateBitAddress_eq harea ho hk, Eff.bind_ok (Eff.lift_apply _ _), Eff.bind_ok (Eff.get_apply _)]
  dsimp only
  rw [if_neg (by simp [hw.connected])]
  rfl

theorem readBit_link (hw : Linked p c w) (hp : 24 ≤ p)
    (harea : area = areaInputs ∨ area = areaOutputs ∨ area = areaMerkers ∨ area = areaDB)
    (ho : o ≤ maxS7AnyByteOffset) (hk : k < 8) (hkey : keyOf area db.toNat = .ok key)
    (hreg : w.session.mem.regions key = some reg) (hin : o < reg.data.length) :
    ∃ c' w', readBit (serverNet cfg) ⟨area, db.toNat, o, k⟩ (c, w) =
        (.ok ((reg.data.getD o 0).toNat.testBit k), (c', w')) ∧ Linked p c' w' ∧ w'.session = w.session := by
  obtain ⟨ref, pduRef, href⟩ : ∃ ref pduRef, nextPDURef (c, w) = (.ok ref, ({ c with pduRef }, w)) :=
    ⟨_, _, nextPDURef_apply c w⟩
  have henc : encodeReadVarBitRequest ref ⟨area, db.toNat, o, k⟩ =
      .ok (message rosctrJob ref ([funcReadVar, 1] ++ bitItem area db o k) []) := by
    unfold encodeReadVarBitRequest
    rw [encodeS7AnyBit_eq area db ho hk, Outcome.ok_bind, encodeMessage_eq (by simp) (by simp)]
  have hserve : handle cfg (message rosctrJob ref ([funcReadVar, 1] ++ bitItem area db o k) []) w.session = _ :=
    handle_read_item cfg (by simp) (parseVarSpecs_bitItem funcReadVar ho hk)
      (itemResult_bitSpec ho hk (timerOrCounter_eq_false harea) hkey hreg hin) (by
        have := hw.session
        simp only [bitResult, List.length_cons, List.length_nil]
        omega) (by simp [bitResult])
  have hw' : Linked p { c with pduRef } w := ⟨hw.connected, hw.client, hw.session, hw.idle⟩
  obtain ⟨w', hsend, hlinked, hsession⟩ := hw'.exchange cfg ref (by rw [length_message]; simp; omega) hserve hw.session
  rw [responseSections_ackData (by simp [readVarResultBytes, bitResult])] at hsend
  refine ⟨{ c with pduRef }, w', ?_, hlinked, hsession⟩
  unfold readBit BitAddress.s7Any
  rw [Eff.bind_ok (bitGate_link cfg hw harea ho hk), Eff.bind_ok href]
  dsimp only
  rw [henc, asValidation_ok, Eff.bind_ok (Eff.lift_apply _ _), Eff.bind_ok hsend]
  dsimp only
  rw [bitAnswer_bitResult]
  rfl

/-! ### Writing a bit -/

theorem key_bitSpec (hkey : keyOf area db.toNat = .ok key) : (bitSpec area db o k).key = key :=
  (show key = (bitSpec area db o k).key from keyOf_spec hkey).symm

/-- Storing a bit item changes one bit. -/
theorem bitAt_storeItem {mem : Memory} (ho : o ≤ maxS7AnyByteOffset) (hk : k < 8)
    (hplain : Area.timerOrCounter area = false) (hkey : keyOf area db.toNat = .ok key)
    (hreg : mem.regions key = some reg) (hin : o < reg.data.length) (v : Bool) (key' : AreaKey) (i j : Nat) :
    (storeItem mem (bitSpec area db o k) [if v then 1 else 0]).bitAt key' i j =
      if key' = key ∧ i = o ∧ j = k then some v else mem.bitAt key' i j := by
  have hstart : (bitSpec area db o k).byteStart = o := by
    have := bitStart_toNat ho hk
    simp only [VarSpec.byteStart, show Area.timerOrCounter (bitSpec area db o k).area = false from hplain,
      show (bitSpec area db o k).startBit.toNat = o * 8 + k from this]
    rw [if_neg (by decide)]
    omega
  have hbit : (bitSpec area db o k).bitIndex = k := by
    have := bitStart_toNat ho hk
    simp only [VarSpec.bitIndex, show (bitSpec area db o k).startBit.toNat = o * 8 + k from this]
    omega
  have hvalue : (([if v then (1 : UInt8) else 0].headD 0).toNat % 2 == 1) = v := by cases v <;> rfl
  have hstore : storeItem mem (bitSpec area db o k) [if v then 1 else 0] =
      mem.set key { reg with data := reg.data.modify o fun b => withBit b k v } := by
    unfold storeItem storeBytes
    rw [key_bitSpec hkey, hreg, hstart, hbit, hvalue]
    rfl
  unfold Memory.bitAt Memory.byteAt
  rw [hstore]
  by_cases hkey' : key' = key
  · subst hkey'
    rw [Memory.set_regions_self, hreg, Option.bind_some, Option.bind_some, List.getElem?_modify]
    by_cases hi : o = i
    · subst hi
      rw [List.getElem?_eq_getElem hin]
      simp only [↓reduceIte, Option.map_eq_map, Option.map_some, testBit_withBit _ hk, true_and]
      split <;> rfl
    · have hi' : ¬i = o := fun h => hi h.symm
      simp [hi, hi']
  · rw [Memory.set_regions_of_ne hkey', if_neg (fun h => hkey' h.1)]

theorem writeBit_link (hw : Linked p c w) (hp : 30 ≤ p)
    (harea : area = areaInputs ∨ area = areaOutputs ∨ area = areaMerkers ∨ area = areaDB)
    (ho : o ≤ maxS7AnyByteOffset) (hk : k < 8) (hkey : keyOf area db.toNat = .ok key)
    (hreg : w.session.mem.regions key = some reg) (hin : o < reg.data.length) (hro : reg.readOnly = false) (v : Bool) :
    ∃ c' w', writeBit (serverNet cfg) ⟨area, db.toNat, o, k⟩ v (c, w) = (.ok (), (c', w')) ∧ Linked p c' w' ∧
      w'.session.mem = storeItem w.session.mem (bitSpec area db o k) [if v then 1 else 0] := by
  obtain ⟨ref, pduRef, href⟩ : ∃ ref pduRef, nextPDURef (c, w) = (.ok ref, ({ c with pduRef }, w)) :=
    ⟨_, _, nextPDURef_apply c w⟩
  have hplain := timerOrCounter_eq_false harea
  have henc : encodeWriteVarBitRequest ref ⟨area, db.toNat, o, k⟩ v =
      .ok (message rosctrJob ref ([funcWriteVar, 1] ++ bitItem area db o k)
        [0x00, dataTransportSizeBit, 0x00, 0x01, if v then 1 else 0, 0x00]) := by
    unfold encodeWriteVarBitRequest
    rw [encodeS7AnyBit_eq area db ho hk, Outcome.ok_bind]
    exact encodeMessage_eq (by simp) (by simp)
  have hcode : writeCode w.session.mem.shape (bitSpec area db o k) 1 = retCodeSuccess := by
    rw [writeCode_of_resolved 1 (resolve_bitSpec ho hk hplain hkey hreg hin), if_neg (by simp), if_neg]
    simp [hro, hplain]
  have hparse := @parseWriteVarRequest_bitItem area db o k ho hk (if v then 1 else 0)
  have hserve := handle_write_item cfg (s := w.session) ref (by simp) (by simp) hparse
  rw [show ([if v then (1 : UInt8) else 0] : Bytes).length = 1 from rfl, hcode, if_pos rfl] at hserve
  have hw' : Linked p { c with pduRef } w := ⟨hw.connected, hw.client, hw.session, hw.idle⟩
  obtain ⟨w', hsend, hlinked, hsession⟩ := hw'.exchange cfg ref (by rw [length_message]; simp; omega) hserve hw.session
  rw [responseSections_ackData (by simp)] at hsend
  refine ⟨{ c with pduRef }, w', ?_, hlinked, by rw [hsession]⟩
  unfold writeBit BitAddress.s7Any
  rw [Eff.bind_ok (bitGate_link cfg hw harea ho hk), Eff.bind_ok href]
  dsimp only
  rw [henc, asValidation_ok, Eff.bind_ok (Eff.lift_apply _ _), Eff.bind_ok hsend]
  dsimp only
  rw [(parseWriteVarResponse_single retCodeSuccess).1 rfl]
  rfl

end Link

/-! ### Reads around a bit

With a PDU of any size a chunk may be longer than the length field of its answer can say. Such a chunk comes back cut
short or not at all, and then the read is no success. -/

theorem encodeReadVarRequest_fail (ref : UInt16) (area : UInt8) (db offset : Int) {n : Nat} (h : 65535 < n) :
    ∃ e, encodeReadVarRequest ref [⟨area, db, offset, n⟩] = .fail e := by
  have hitem : ∃ e, encodeS7Any ⟨area, db, offset, n⟩ = .fail e := by
    unfold encodeS7Any
    dsimp only
    split
    · exact ⟨_, rfl⟩
    split
    · exact ⟨_, rfl⟩
    rw [if_pos (by
      have : maxS7AnyCount = 65535 := rfl
      omega)]
    exact ⟨_, rfl⟩
  obtain ⟨e, he⟩ := hitem
  unfold encodeReadVarRequest
  rw [List.mapM_cons, he]
  exact ⟨e, rfl⟩

/-- The server answers a Read Var job of one item, and the client takes nothing but its result from the answer. -/
theorem handle_read_result (cfg : ServerConfig) {s : Session} (ref : UInt16) {item : Bytes} {spec : VarSpec}
    {r : ReadVarResult} (hitem : item.length ≤ 65533)
    (hparse : parseReadVarRequest ([funcReadVar, 1] ++ item) = .ok [spec])
    (hr : ∀ range, itemResult s.mem spec range = .ok r) :
    ∃ out, handle cfg (message rosctrJob ref ([funcReadVar, 1] ++ item) []) s = (.ok (some out, true), s) ∧
      ∀ param data, responseSections out ref = .ok (param, data) →
        data = [] ∨ data = [r.returnCode, r.transportSize] ++ putUint16 r.rawLength ++ r.data := by
  have heq : read s ref ([funcReadVar, 1] ++ item) = _ := read_item hparse hr
  have hbytes : readVarResultBytes [r] = [r.returnCode, r.transportSize] ++ putUint16 r.rawLength ++ r.data := by
    simp [readVarResultBytes]
  rw [handle_message (by simp; omega) (by simp)]
  by_cases hgt : s.pduSize < 14 + readVarResultsSize [r]
  · rw [if_pos hgt] at heq
    refine ⟨_, dispatch_read rfl heq, fun param data hsections => ?_⟩
    cases responseSections_ackData_ok (by simp) (by simp) hsections
    exact .inl rfl
  rw [if_neg hgt, encodeReadVarResponse, if_neg (by simp)] at heq
  by_cases hbig : (readVarResultBytes [r]).length ≤ 65535
  · rw [encodeAckData_eq (by simp) hbig] at heq
    refine ⟨_, dispatch_read rfl heq, fun param data hsections => ?_⟩
    cases responseSections_ackData_ok (by simp) hbig hsections
    exact .inr hbytes
  · obtain ⟨e, he, -⟩ := encodeAckData_fail (.inr (Nat.not_le.mp hbig))
    refine ⟨_, dispatch_read_fail rfl (heq.trans he), fun param data hsections => ?_⟩
    cases responseSections_ackData_ok (by simp) (by simp) hsections
    exact .inl rfl

theorem readAnswer_taken {reqLen : Nat} {result : Bytes} {n : Nat} {param data payload : Bytes}
    (h : readAnswer reqLen result n param data = .ok (.ok payload)) :
    payload = (data.drop 4).take payload.length ∧ payload.length ≤ n := by
  obtain ⟨item, items, hparse, -, rfl, hle⟩ := readAnswer_eq_taken.mp h
  exact ⟨(parseReadVarResponse_head hparse).payload.symm, hle⟩

section Chunks
variable (cfg : ServerConfig) {p : Nat} {c : Client} {w : Link} {addr : Address} {db : Nat} {reg : Region}

/-- A chunk that is taken is the start of the bytes it asked for. -/
theorem readChunk_taken (hw : Linked p c w) (hp : 24 ≤ p) (hreg : Registered w.session.mem addr db reg)
    {offset n : Nat} (hoff : offset ≤ maxS7AnyByteOffset) (hpos : 0 < n) {reqLen : Nat} {first : Bool}
    {result payload : Bytes} {st : Client × Link}
    (h : readChunk (serverNet cfg) addr reqLen first offset result n (c, w) = (.ok (.ok payload), st)) :
    payload <+: (reg.data.drop offset).take n ∧ payload.length ≤ n ∧ Linked p st.1 st.2 ∧
      st.2.session = w.session := by
  obtain ⟨hdb, hdble, hplain, key, hkey, hfound⟩ := hreg
  rcases readChunk_cases h with ⟨e, he⟩ | ⟨param, data, ⟨st₁, ref, st₂, req, hgate, href, hreq, hsend⟩, htaken⟩
  · cases he
  rw [chunkGate_link] at hgate
  cases hgate
  cases href
  rw [hdb] at hreq
  by_cases hn : n ≤ 65535
  swap
  · obtain ⟨e, he⟩ := encodeReadVarRequest_fail (nextPDURefFrom c.pduRef).1 addr.area db offset (Nat.not_le.mp hn)
    rw [he] at hreq
    cases hreq
  have haddr : Addressable db offset n := ⟨hdble, hoff, hn⟩
  rw [encodeReadVarRequest_eq _ haddr] at hreq
  cases hreq
  obtain ⟨r, hr, hwf, -, hcase⟩ := itemResult_byteSpec haddr hpos hplain hkey hfound
  obtain ⟨out, hserve, hsections⟩ := handle_read_result cfg (nextPDURefFrom c.pduRef).1 (by simp)
    (parseVarSpecs_byteItem funcReadVar haddr) hr
  have hw' : Linked p { c with pduRef := (nextPDURefFrom c.pduRef).2 } w :=
    ⟨hw.connected, hw.client, hw.session, hw.idle⟩
  obtain ⟨w', hlink, hlinked, hsession⟩ :=
    hw'.exchange cfg _ (by rw [length_readRequest]; exact hp) hserve hw.session
  obtain ⟨hanswer, rfl⟩ := Prod.mk.inj (hlink.symm.trans hsend)
  obtain ⟨hpayload, hle⟩ := readAnswer_taken htaken
  refine ⟨?_, hle, hlinked, hsession⟩
  -- The server sends the bytes of the region, or an item without data.
  have hdata : data.drop 4 <+: (reg.data.drop offset).take n := by
    rcases hsections param data hanswer with rfl | rfl
    · exact List.nil_prefix
    · rw [show ([r.returnCode, r.transportSize] ++ putUint16 r.rawLength ++ r.data).drop 4 = r.data from rfl]
      rcases hcase with ⟨-, -, hbytes⟩ | ⟨-, hcode⟩
      · rw [hbytes]
      · rw [(hwf.refused (by rw [hcode]; decide)).2.2]
        exact List.nil_prefix
  rw [hpayload]
  exact (List.take_prefix _ _).trans hdata

/-- A read that succeeds has taken every chunk in full. -/
theorem readChunks_success (hp : 24 ≤ p) {reqLen : Nat} {chunks : List Nat} (hall : ∀ n ∈ chunks, 0 < n) (offset : Nat)
    (hend : offset + chunks.sum ≤ maxS7AnyByteOffset + 1) {first : Bool} {result : Bytes} (hw : Linked p c w)
    (hreg : Registered w.session.mem addr db reg) (hsum : result.length + chunks.sum ≤ reqLen) {out : ReadResult}
    {st : Client × Link}
    (h : readChunks (serverNet cfg) addr reqLen chunks first offset result (c, w) = (.ok out, st))
    (hok : out.status = .success) :
    result.length + chunks.sum = reqLen ∧ out.data = result ++ (reg.data.drop offset).take chunks.sum := by
  induction chunks generalizing c w first offset result with
  | nil =>
    cases h
    have hlen := (readOutcome_end hsum c first []).success.mp hok
    exact ⟨hlen.1, by simp [readOutcome]⟩
  | cons n chunks ih =>
    obtain ⟨hpos, hrest⟩ := List.forall_mem_cons.mp hall
    rw [List.sum_cons] at hend hsum ⊢
    unfold readChunks at h
    obtain ⟨taken, st₁, hchunk, h⟩ := Eff.bind_eq_ok.mp h
    cases taken with
    | error out' =>
      cases h
      exact absurd hok (readChunk_unfinished hchunk).status
    | ok payload =>
      obtain ⟨hstart, hle, hw₁, hsession⟩ :=
        readChunk_taken cfg hw hp hreg (show offset ≤ maxS7AnyByteOffset by omega) hpos hchunk
      obtain ⟨hlen, hdata⟩ := ih hrest (offset + n) (by omega) hw₁ (hsession ▸ hreg)
        (by rw [List.length_append]; omega) h
      rw [List.length_append] at hlen
      -- The lengths add up to the requested one, so that no chunk was cut short.
      have hfull : payload = (reg.data.drop offset).take n :=
        hstart.eq_of_length_le (Nat.le_trans (List.length_take_le _ _) (by omega))
      refine ⟨by omega, ?_⟩
      rw [hdata, hfull, List.take_add, List.drop_drop, List.append_assoc]

end Chunks

/-- A read that returns a result has passed the validation and run its chunks. -/
theorem readArea_ok {σ : Type} {net : Net σ} {addr : Address} {c : Client} {w : σ} {out : ReadResult}
    {st : Client × σ} (h : readArea net addr (c, w) = (.ok out, st)) :
    validateAddress addr = .ok () ∧ validateRangeEnd addr.start addr.size = .ok () ∧
      readChunks net addr addr.size.toNat
        (planReadChunks addr.size.toNat (maxChunkData c.pduSize readVarRequestOverhead)) true addr.start.toNat [] (c, w) =
          (.ok out, st) := by
  unfold readArea at h
  obtain ⟨_, _, hvalid, h⟩ := Eff.bind_eq_ok.mp h
  obtain ⟨_, _, hrange, h⟩ := Eff.bind_eq_ok.mp h
  obtain ⟨hv, rfl⟩ := Prod.mk.inj hvalid
  obtain ⟨hr, rfl⟩ := Prod.mk.inj hrange
  exact ⟨hv, hr, h⟩

/-! ### Bit access -/

theorem decodeBool_eq {data : Bytes} {o k : Nat} (ho : o < data.length) (hk : k < 8) :
    decodeBool data (8 * o + k) = (data.getD o 0).toNat.testBit k := by
  have hbit : (8 * (o : Int) + k).toNat = 8 * o + k := by omega
  unfold decodeBool
  rw [if_neg (by omega), if_neg (by omega), hbit]
  dsimp only
  rw [show (8 * o + k) / 8 = o by omega, show (8 * o + k) % 8 = k by omega, if_neg (Nat.not_le.mpr ho),
    and_mask_bne_zero _ hk]

/-- Bits against the server, with a PDU of any size that holds the request. Writing a bit changes that bit and no
    other; reading it returns what it is, which is also what the codec finds in the bytes of a read of the region. -/
theorem bit_access_end_to_end (cfg : ServerConfig) {p : Nat} (hp : 30 ≤ p) {c : Client} {s : Session}
    (hconn : c.connected = true) (hc : c.pduSize = p) (hs : s.pduSize = p) {area : UInt8} {db : UInt16}
    (harea : area = areaInputs ∨ area = areaOutputs ∨ area = areaMerkers ∨ area = areaDB) {key : AreaKey} {reg : Region}
    (hkey : keyOf area db.toNat = .ok key) (hreg : s.mem.regions key = some reg)
    (hsize : reg.data.length ≤ maxAreaSize) {o k : Nat} (ho : o < reg.data.length) (hk : k < 8) :
    (reg.readOnly = false → ∀ v, ∃ c' w',
      writeBit (serverNet cfg) ⟨area, db.toNat, o, k⟩ v (c, { session := s }) = (.ok (), (c', w')) ∧
        w'.session.mem.shape = s.mem.shape ∧
        ∀ key' i j, w'.session.mem.bitAt key' i j =
          if key' = key ∧ i = o ∧ j = k then some v else s.mem.bitAt key' i j) ∧
    (∃ bit, s.mem.bitAt key o k = some bit ∧
      (∃ c' w', readBit (serverNet cfg) ⟨area, db.toNat, o, k⟩ (c, { session := s }) = (.ok bit, (c', w')) ∧
        w'.session = s) ∧
      ∀ (n : Int) out st, readArea (serverNet cfg) ⟨area, db.toNat, 0, n⟩ (c, { session := s }) = (.ok out, st) →
        out.status = .success → o < n → decodeBool out.data (8 * o + k) = bit) := by
  have hle : o ≤ maxS7AnyByteOffset := by
    have : maxAreaSize = maxS7AnyByteOffset + 1 := rfl
    omega
  have hw : Linked p c { session := s } := ⟨hconn, hc, hs, rfl, rfl⟩
  have hplain := timerOrCounter_eq_false harea
  refine ⟨fun hro v => ?_, (reg.data.getD o 0).toNat.testBit k, ?_, ?_, ?_⟩
  · obtain ⟨c', w', hwrite, -, hmem⟩ := writeBit_link cfg hw hp harea hle hk hkey hreg ho hro v
    refine ⟨c', w', hwrite, by rw [hmem, shape_storeItem], fun key' i j => ?_⟩
    rw [hmem]
    exact bitAt_storeItem hle hk hplain hkey hreg ho v key' i j
  · simp [Memory.bitAt, Memory.byteAt, hreg, ho]
  · obtain ⟨c', w', hread, -, hsession⟩ := readBit_link cfg hw (by omega) harea hle hk hkey hreg ho
    exact ⟨c', w', hread, hsession⟩
  · intro n out st hread hok hn
    obtain ⟨-, hrange, hchunks⟩ := readArea_ok hread
    have hlast := validateRangeEnd_ok hrange
    have hmem : Registered s.mem ⟨area, db.toNat, 0, n⟩ db.toNat reg :=
      ⟨rfl, Nat.le_of_lt_succ db.toNat_lt, hplain, key, hkey, hreg⟩
    obtain ⟨hsum, hall⟩ := planReadChunks_spec n.toNat (maxChunkData_pos c.pduSize readVarRequestOverhead)
    dsimp only at hlast hchunks
    obtain ⟨-, hdata⟩ := readChunks_success cfg (Nat.le_trans (by decide) hp) (fun m hm => (hall m hm).1) 0 (by omega) hw
      hmem (by rw [List.length_nil, hsum]; omega) hchunks hok
    rw [hsum, List.nil_append, List.drop_zero] at hdata
    rw [decodeBool_eq (by rw [hdata, List.length_take]; omega) hk, hdata, List.getD_eq_getElem?_getD,
      List.getElem?_take_of_lt (by omega), ← List.getD_eq_getElem?_getD]

/-- Bit 3 of the second byte of DB1, in a region of three bytes. -/
theorem bit_access_end_to_end_db1 :
    ∃ c' w', writeBit (serverNet defaultConfig) ⟨areaDB, 1, 1, 3⟩ true (⟨true, 30, 0, 0⟩, { session := ⟨dbSession.mem, 30⟩ })
        = (.ok (), (c', w')) ∧
      w'.session.mem.bitAt { area := areaDB, db := 1 } 1 3 = some true ∧
      w'.session.mem.bitAt { area := areaDB, db := 1 } 1 5 = some true ∧
      w'.session.mem.bitAt { area := areaDB, db := 1 } 1 4 = some false := by
  have hreg : dbSession.mem.regions { area := areaDB, db := 1 } = some ⟨[0x11, 0x22, 0x33], false⟩ := rfl
  obtain ⟨hwrite, -⟩ := bit_access_end_to_end defaultConfig (p := 30) (by decide) (c := ⟨true, 30, 0, 0⟩)
    (s := ⟨dbSession.mem, 30⟩) rfl rfl rfl (.inr (.inr (.inr rfl)))
    (show keyOf areaDB (1 : UInt16).toNat = .ok { area := areaDB, db := 1 } from rfl) hreg (by decide) (o := 1) (k := 3)
    (by decide) (by decide)
  obtain ⟨c', w', hrun, -, hbits⟩ := hwrite rfl true
  exact ⟨c', w', hrun, by rw [hbits]; rfl, by rw [hbits]; rfl, by rw [hbits]; rfl⟩

end S7Comm
