import S7Comm.Theorems.LinkBase

/-! `WriteArea` against the server. A chunk is stored whole or not at all, and the first one that is not ends the call,
    so what the call leaves behind is a prefix of its data. -/

namespace S7Comm
open Go

/-! ### Storing -/

section Store
variable {mem : Memory} {key : AreaKey} {reg : Region} {start : Nat} {d : Bytes}

theorem storeAt_regions_self (h : mem.regions key = some reg) (start : Nat) (d : Bytes) :
    (storeAt mem key start d).regions key = some { reg with data := overwrite reg.data start d } := by
  simp [storeAt, h]

theorem storeAt_regions_of_ne {k : AreaKey} (h : k ≠ key) (start : Nat) (d : Bytes) :
    (storeAt mem key start d).regions k = mem.regions k := by
  unfold storeAt
  split
  · rfl
  · exact Memory.set_regions_of_ne h

theorem storeAt_none (h : mem.regions key = none) (start : Nat) (d : Bytes) : storeAt mem key start d = mem := by
  simp [storeAt, h]

theorem shape_storeAt (mem : Memory) (key : AreaKey) (start : Nat) (d : Bytes) :
    (storeAt mem key start d).shape = mem.shape := by
  unfold storeAt
  split
  · rfl
  · rename_i reg hreg
    exact shape_set hreg (length_overwrite _ _ _)

@[simp] theorem storeAt_nil (mem : Memory) (key : AreaKey) (start : Nat) : storeAt mem key start [] = mem := by
  ext1
  funext k
  cases hreg : mem.regions key with
  | none => rw [storeAt_none hreg]
  | some reg =>
    by_cases hk : k = key
    · subst hk
      rw [storeAt_regions_self hreg, overwrite_nil, hreg]
    · rw [storeAt_regions_of_ne hk]

/-- Storing one span and then the one right after it stores both. -/
theorem storeAt_append (h : mem.regions key = some reg) (start : Nat) (d₁ d₂ : Bytes)
    (hfits : start + (d₁ ++ d₂).length ≤ reg.data.length) :
    storeAt (storeAt mem key start d₁) key (start + d₁.length) d₂ = storeAt mem key start (d₁ ++ d₂) := by
  ext1
  funext k
  by_cases hk : k = key
  · subst hk
    rw [storeAt_regions_self (storeAt_regions_self h start d₁), storeAt_regions_self h,
      overwrite_overwrite_append hfits]
  · rw [storeAt_regions_of_ne hk, storeAt_regions_of_ne hk, storeAt_regions_of_ne hk]

/-- A stored span holds the new bytes, and every other byte of every region is as it was. -/
theorem byteAt_storeAt (h : 0 < d.length → ∃ reg, mem.regions key = some reg ∧ start + d.length ≤ reg.data.length)
    (k : AreaKey) (i : Nat) :
    (storeAt mem key start d).byteAt k i =
      if k = key ∧ start ≤ i ∧ i < start + d.length then d[i - start]? else mem.byteAt k i := by
  by_cases hempty : 0 < d.length
  · obtain ⟨reg, hreg, hfits⟩ := h hempty
    unfold Memory.byteAt
    by_cases hk : k = key
    · subst hk
      rw [storeAt_regions_self hreg, hreg, Option.bind_some, Option.bind_some, getElem?_overwrite hfits]
      simp
    · rw [storeAt_regions_of_ne hk, if_neg (fun hc => hk hc.1)]
  · rw [List.eq_nil_of_length_eq_zero (Nat.eq_zero_of_not_pos hempty), storeAt_nil, if_neg]
    rintro ⟨-, hle, hlt⟩
    exact Nat.not_lt.mpr hle hlt

end Store

/-! ### The item and its answer -/

section Answer
variable (cfg : ServerConfig) {s : Session} {db start : Nat} {value : Bytes}

/-- A byte item is stored where it is addressed, in a region that holds it. -/
theorem storeItem_byteSpec {mem : Memory} {area : UInt8} (h : Addressable db start value.length)
    (hcode : writeCode mem.shape (byteSpec area db start value.length) value.length = retCodeSuccess) :
    ∃ reg, mem.regions (byteSpec area db start value.length).key = some reg ∧ start + value.length ≤ reg.data.length ∧
      storeItem mem (byteSpec area db start value.length) value =
        storeAt mem (byteSpec area db start value.length).key start value := by
  obtain ⟨reg, hacc⟩ := accepted_of_writeCode hcode
  have hstart : (byteSpec area db start value.length).byteStart = start := by
    unfold VarSpec.byteStart
    rw [hacc.plain, if_neg (by decide), show (byteSpec area db start value.length).startBit.toNat = start * 8 from
      startBit_toNat h.start_le, Nat.mul_div_cancel _ (by decide)]
  have hbit : (byteSpec area db start value.length).isBit = false := rfl
  refine ⟨reg, hacc.reg_eq, hstart ▸ hacc.fits, ?_⟩
  unfold storeItem storeAt storeBytes
  simp only [hbit, hstart, Bool.false_eq_true, ↓reduceIte]

/-- The answer to a Write Var job of one item, and the session after it. -/
theorem handle_write_item (ref : UInt16) {item sect : Bytes} {spec : VarSpec} {data : WriteVarData}
    (hitem : item.length ≤ 65533) (hsection : sect.length ≤ 65535)
    (hparse : parseWriteVarRequest ([funcWriteVar, 1] ++ item) sect = .ok ([spec], [data])) :
    handle cfg (message rosctrJob ref ([funcWriteVar, 1] ++ item) sect) s =
      (.ok (some (ackData ref 0 0 [funcWriteVar, 1] [writeCode s.mem.shape spec data.data.length]), true),
        { s with mem :=
            if writeCode s.mem.shape spec data.data.length = retCodeSuccess then storeItem s.mem spec data.data
            else s.mem }) := by
  rw [handle_message (by simp; omega) hsection, dispatch_write rfl (write_eq s.mem ref hparse)]
  by_cases hcode : writeCode s.mem.shape spec data.data.length = retCodeSuccess
  · simp [acceptedItems, storeItems, writeCodes, hcode]
  · simp [acceptedItems, storeItems, writeCodes, hcode]

theorem handle_write (ref : UInt16) (area : UInt8) (h : Addressable db start value.length)
    (hbits : value.length * 8 ≤ 65535) :
    handle cfg (message rosctrJob ref ([funcWriteVar, 1] ++ byteItem area db start value.length) (writeSection value)) s =
      (.ok (some (ackData ref 0 0 [funcWriteVar, 1]
          [writeCode s.mem.shape (byteSpec area db start value.length) value.length]), true),
        { s with mem :=
            if writeCode s.mem.shape (byteSpec area db start value.length) value.length = retCodeSuccess then
              storeItem s.mem (byteSpec area db start value.length) value
            else s.mem }) := by
  have hsection : (writeSection value).length ≤ 65535 := by
    rw [length_writeSection]
    omega
  rw [handle_write_item cfg ref (by simp) hsection (parseWriteVarRequest_byteItem h hbits)]

/-- The client takes the one code of the answer as success or as an error. -/
theorem parseWriteVarResponse_single (code : UInt8) :
    (code = retCodeSuccess → parseWriteVarResponse [funcWriteVar, 1] [code] = .ok ()) ∧
      (code ≠ retCodeSuccess → ∃ e, parseWriteVarResponse [funcWriteVar, 1] [code] = .fail e) := by
  have hcodes : parseWriteVarResponseCodes [funcWriteVar, 1] [code] = .ok [code] := rfl
  unfold parseWriteVarResponse
  rw [hcodes, Outcome.ok_bind]
  constructor
  · rintro rfl
    rfl
  · intro hne
    have herr : returnCodeError code = some (.s7 { code, message := itemReturnCodeString code }) := if_neg hne
    simp only [firstItemError, herr]
    exact ⟨_, rfl⟩

end Answer

/-! ### Chunks -/

/-- A chunk of `n` bytes fits the length field of its item and, padded, the PDU. -/
def Sendable (p n : Nat) : Prop := n * 8 ≤ 65535 ∧ ¬(p > 0 ∧ 28 + n + n % 2 > p)

/-- The address as `WriteArea` accepts it: `len` bytes from `start` are addressable. -/
structure Writable (addr : Address) (db start len : Nat) : Prop where
  db_eq : addr.dbNumber = db
  db_le : db ≤ 65535
  start_eq : addr.start = start
  last_le : start + len ≤ maxS7AnyByteOffset + 1

theorem key_byteSpec {addr : Address} {db : Nat} (h : addr.dbNumber = db) (start size : Nat) :
    (byteSpec addr.area db start size).key = addr.key := by
  unfold VarSpec.key Address.key
  rw [h, Int.toNat_natCast]
  rfl

section Chunks
variable (cfg : ServerConfig) {p : Nat} {c : Client} {w : Link} {addr : Address} {db start : Nat} {chunk data : Bytes}

/-- The exchange of one chunk: the request is too long, or it is refused, or its bytes are stored. -/
theorem writeRequest_link (hw : Linked p c w) (hdb : addr.dbNumber = db) (haddr : Addressable db start chunk.length)
    (hbits : chunk.length * 8 ≤ 65535) (ref : UInt16) {req : Bytes} (hreq : req =
      message rosctrJob ref ([funcWriteVar, 1] ++ byteItem addr.area db start chunk.length) (writeSection chunk)) :
    ∃ w', Linked p c w' ∧
      ((∃ e, (do
            let (param, respData) ← sendReceive (serverNet cfg) req ref
            parseWriteVarResponse param respData : ClientM Link Unit) (c, w) = (.fail e, (c, w'))) ∧
          w'.session.mem = w.session.mem ∧
          ¬(Sendable p chunk.length ∧
            writeCode w.session.mem.shape (byteSpec addr.area db start chunk.length) chunk.length = retCodeSuccess) ∨
        (do
            let (param, respData) ← sendReceive (serverNet cfg) req ref
            parseWriteVarResponse param respData : ClientM Link Unit) (c, w) = (.ok (), (c, w')) ∧
          ∃ reg, w.session.mem.regions addr.key = some reg ∧ start + chunk.length ≤ reg.data.length ∧
            w'.session.mem = storeAt w.session.mem addr.key start chunk) := by
  have hlen : req.length = 28 + chunk.length + chunk.length % 2 := by
    rw [hreq]
    exact length_writeRequest ref chunk
  by_cases hlong : c.pduSize > 0 ∧ req.length > c.pduSize
  · obtain ⟨e, -, he⟩ : ∃ e, _ ∧ sendReceive (serverNet cfg) req ref (c, w) = (.fail e, (c, w)) :=
      sendReceive_unsent fun h => h.2 hlong
    rw [hlen, hw.client] at hlong
    exact ⟨w, hw, .inl ⟨⟨e, Eff.bind_fail he⟩, rfl, fun h => h.1.2 hlong⟩⟩
  obtain ⟨code, hcode⟩ : ∃ code,
      code = writeCode w.session.mem.shape (byteSpec addr.area db start chunk.length) chunk.length := ⟨_, rfl⟩
  have hserve := handle_write cfg (s := w.session) ref addr.area haddr hbits
  rw [← hreq, ← hcode] at hserve
  have hsend := sendReceive_link cfg ref hw.idle hw.connected hlong hserve
  rw [responseSections_ackData (by simp)] at hsend
  rw [← hcode, Eff.bind_ok hsend]
  obtain ⟨hok, hrefused⟩ := parseWriteVarResponse_single code
  by_cases hsuccess : code = retCodeSuccess
  · obtain ⟨reg, hreg, hend, hstore⟩ := storeItem_byteSpec haddr (hcode ▸ hsuccess)
    rw [key_byteSpec hdb] at hreg hstore
    rw [if_pos hsuccess, hstore]
    dsimp only
    rw [hok hsuccess]
    exact ⟨w.after ⟨storeAt w.session.mem addr.key start chunk, w.session.pduSize⟩ req _,
      ⟨hw.connected, hw.client, hw.session, hw.idle.after _ _ _⟩, .inr ⟨rfl, reg, hreg, hend, rfl⟩⟩
  · obtain ⟨e, he⟩ := hrefused hsuccess
    rw [if_neg hsuccess]
    dsimp only
    rw [he]
    exact ⟨w.after w.session req (ackData ref 0 0 [funcWriteVar, 1] [code]),
      ⟨hw.connected, hw.client, hw.session, hw.idle.after _ _ _⟩, .inl ⟨⟨e, rfl⟩, rfl, fun h => hsuccess h.2⟩⟩

/-- A chunk is stored whole, or the call ends with the memory as it was. -/
theorem writeChunk_link (hw : Linked p c w) (haddr : Writable addr db start data.length) {offset n : Nat} (hpos : 0 < n)
    (hle : offset + n ≤ data.length) (first : Bool) :
    ∃ c' w', Linked p c' w' ∧
      ((∃ e, writeChunk (serverNet cfg) addr data first offset n (c, w) = (.fail e, (c', w'))) ∧
          w'.session.mem = w.session.mem ∧
          ¬(Sendable p n ∧ writeCode w.session.mem.shape (byteSpec addr.area db (start + offset) n) n = retCodeSuccess) ∨
        writeChunk (serverNet cfg) addr data first offset n (c, w) = (.ok (), (c', w')) ∧
          ∃ reg, w.session.mem.regions addr.key = some reg ∧ start + offset + n ≤ reg.data.length ∧
            w'.session.mem = storeAt w.session.mem addr.key (start + offset) ((data.drop offset).take n)) := by
  obtain ⟨hdb, hdble, hstart, hlast⟩ := haddr
  obtain ⟨ref, pduRef, href⟩ : ∃ ref pduRef, nextPDURef (c, w) = (.ok ref, ({ c with pduRef }, w)) :=
    ⟨_, _, nextPDURef_apply c w⟩
  obtain ⟨chunk, hchunk⟩ : ∃ chunk, (data.drop offset).take n = chunk := ⟨_, rfl⟩
  obtain rfl : chunk.length = n := by
    rw [← hchunk]
    simp
    omega
  have hslice : sliceOf data offset (offset + chunk.length) = .ok chunk := by
    rw [sliceOf_of_le (by omega) hle, Nat.add_sub_cancel_left, hchunk]
  have hint : addr.start + (offset : Int) = ((start + offset : Nat) : Int) := by
    rw [hstart]
    rfl
  have hw' : Linked p { c with pduRef } w := ⟨hw.connected, hw.client, hw.session, hw.idle⟩
  unfold writeChunk
  rw [hchunk, Eff.bind_ok (chunkGate_link cfg first), hslice, Eff.bind_ok (Eff.lift_apply _ _), Eff.bind_ok href, hdb,
    hint]
  by_cases hbits : chunk.length * 8 ≤ 65535
  · have haddr : Addressable db (start + offset) chunk.length := ⟨hdble, by omega, by omega⟩
    obtain ⟨w', hlinked, hcase⟩ := writeRequest_link cfg hw' hdb haddr hbits ref rfl
    rw [encodeWriteVarRequest_eq ref haddr hbits]
    exact ⟨_, w', hlinked, hcase⟩
  · obtain ⟨e, he⟩ := encodeWriteVarRequest_fail ref ⟨addr.area, db, ((start + offset : Nat) : Int), chunk.length⟩ hbits
    rw [he]
    exact ⟨_, w, hw', .inl ⟨⟨_, rfl⟩, rfl, fun h => hbits h.1.1⟩⟩

section Registered
variable {mem : Memory} {reg : Region}

/-- The region stays registered, with its length and its flag. -/
theorem Registered.storeAt (h : Registered mem addr db reg) (start : Nat) (d : Bytes) :
    Registered (storeAt mem addr.key start d) addr db { reg with data := overwrite reg.data start d } := by
  obtain ⟨hdb, hdble, hplain, key, hkey, hreg⟩ := h
  have hnum : (byteSpec addr.area db 0 0).dbNumber.toNat = db := uint16_toNat_ofNat (by omega)
  have hspec : keyOf (byteSpec addr.area db 0 0).area (byteSpec addr.area db 0 0).dbNumber.toNat = .ok key := by
    rw [hnum]
    exact hkey
  refine ⟨hdb, hdble, hplain, key, hkey, ?_⟩
  rw [← key_byteSpec hdb 0 0, ← keyOf_spec hspec]
  exact storeAt_regions_self hreg start d

/-- A writable region takes every span inside it. -/
theorem Registered.writeCode (h : Registered mem addr db reg) (hro : reg.readOnly = false) {n : Nat}
    (haddr : Addressable db start n) (hpos : 0 < n) (hend : start + n ≤ reg.data.length) :
    writeCode mem.shape (byteSpec addr.area db start n) n = retCodeSuccess := by
  obtain ⟨-, -, hplain, key, hkey, hreg⟩ := h
  have hres := resolve_byteSpec haddr hpos hplain hkey hreg
  rw [if_neg (Nat.not_lt.mpr hend)] at hres
  rw [writeCode_of_resolved n hres, if_neg (not_not.mpr rfl), if_neg (by simp [hro, hplain])]

end Registered

/-- The chunk loop. By induction on the chunks: the stored chunks are the first `j`, and all of them are stored
    exactly when the loop ends without an error. -/
theorem writeChunks_link (haddr : Writable addr db start data.length) {chunks : List Nat} (hpos : ∀ n ∈ chunks, 0 < n)
    (offset : Nat) (hsum : offset + chunks.sum = data.length) (first : Bool) (hw : Linked p c w) :
    ∃ res c' w' j, writeChunks (serverNet cfg) addr data chunks first offset (c, w) = (res, (c', w')) ∧ res ≠ .panic ∧
      j ≤ chunks.length ∧ (res = .ok () ↔ j = chunks.length) ∧
      w'.session.mem =
        storeAt w.session.mem addr.key (start + offset) ((data.drop offset).take (chunks.take j).sum) ∧
      (0 < (chunks.take j).sum →
        ∃ reg, w.session.mem.regions addr.key = some reg ∧ start + offset + (chunks.take j).sum ≤ reg.data.length) ∧
      (∀ reg, Registered w.session.mem addr db reg → reg.readOnly = false → start + data.length ≤ reg.data.length →
        (∀ n ∈ chunks, Sendable p n) → res = .ok ()) := by
  induction chunks generalizing c w first offset with
  | nil => exact ⟨.ok (), c, w, 0, rfl, by simp, Nat.le_refl 0, by simp, by simp, by simp, by simp⟩
  | cons n chunks ih =>
    obtain ⟨hn, hrest⟩ := List.forall_mem_cons.mp hpos
    rw [List.sum_cons] at hsum
    obtain ⟨c₁, w₁, hw₁, ⟨⟨e, hfail⟩, hmem, hnot⟩ | ⟨hok, reg, hreg, hend, hmem⟩⟩ :=
      writeChunk_link cfg hw haddr hn (show offset + n ≤ data.length by omega) first
    · refine ⟨.fail e, c₁, w₁, 0, Eff.bind_fail hfail, by simp, Nat.zero_le _, by simp, by simpa using hmem, by simp, ?_⟩
      intro reg hreg hro hfits hsend
      obtain ⟨hsend, -⟩ := List.forall_mem_cons.mp hsend
      have hspan : Addressable db (start + offset) n :=
        ⟨haddr.db_le, by have := haddr.last_le; omega, by have := hsend.1; omega⟩
      exact absurd ⟨hsend, hreg.writeCode hro hspan hn (by omega)⟩ hnot
    · obtain ⟨res, c', w', j, hrun, hres, hj, hiff, hmem', hfits, hall⟩ := ih hrest (offset + n) (by omega) false hw₁
      have hlen : ((data.drop offset).take n).length = n := by
        simp
        omega
      have hbound : start + offset + (n + (chunks.take j).sum) ≤ reg.data.length := by
        by_cases hmore : 0 < (chunks.take j).sum
        · obtain ⟨reg', hreg', hle⟩ := hfits hmore
          rw [hmem, storeAt_regions_self hreg] at hreg'
          cases hreg'
          simp only [length_overwrite] at hle
          omega
        · omega
      refine ⟨res, c', w', j + 1, (Eff.bind_ok hok).trans hrun, hres, Nat.succ_le_succ hj, ?_, ?_, ?_, ?_⟩
      · rw [hiff, List.length_cons, Nat.succ_inj]
      · have hjoin := storeAt_append hreg (start + offset) ((data.drop offset).take n)
          ((data.drop (offset + n)).take (chunks.take j).sum) (by
            rw [List.length_append, hlen, List.length_take]
            omega)
        rw [hlen] at hjoin
        rw [hmem', hmem, ← Nat.add_assoc, hjoin, List.take_succ_cons, List.sum_cons, List.take_add, List.drop_drop]
      · intro _
        rw [List.take_succ_cons, List.sum_cons]
        exact ⟨reg, hreg, hbound⟩
      · intro reg' hreg' hro hle hsend
        refine hall { reg' with data := overwrite reg'.data _ _ } (hmem ▸ hreg'.storeAt _ _) hro ?_
          (List.forall_mem_cons.mp hsend).2
        simpa using hle

end Chunks

/-! ### WriteArea -/

theorem sum_take_eq_sum {l : List Nat} (hpos : ∀ n ∈ l, 0 < n) {j : Nat} (hj : j ≤ l.length) :
    (l.take j).sum = l.sum ↔ j = l.length := by
  constructor
  · intro h
    have hdrop : (l.drop j).sum = 0 := by
      have := List.sum_take_add_sum_drop l j
      omega
    by_contra hne
    obtain ⟨n, rest, hcons⟩ := List.exists_cons_of_ne_nil (l := l.drop j) (by simp; omega)
    have := hpos n (List.mem_of_mem_drop (hcons ▸ List.mem_cons_self))
    rw [hcons, List.sum_cons] at hdrop
    omega
  · rintro rfl
    rw [List.take_length]

/-- Writing to the server. What the call stores is the data of its first complete chunks, at the start of the
    addressed region, and every other byte of every region is as it was; the call returns nil exactly when this
    is all of the data. It does so for a span inside a writable region when the PDU size is even. -/
theorem write_area_end_to_end (cfg : ServerConfig) (addr : Address) (data : Bytes) {p : Nat} {c : Client} {s : Session}
    (hconn : c.connected = true) (hc : c.pduSize = p) (hs : s.pduSize = p) (hvalid : validateAddress addr = .ok ())
    (hrange : validateRangeEnd addr.start data.length = .ok ()) :
    ∃ res c' w' j k, writeArea (serverNet cfg) addr data (c, { session := s }) = (res, (c', w')) ∧ res ≠ .panic ∧
      k = ((planReadChunks data.length (maxChunkData p writeVarRequestOverhead)).take j).sum ∧
      (0 < k → ∃ reg, s.mem.regions addr.key = some reg ∧ addr.start.toNat + k ≤ reg.data.length) ∧
      w'.session.mem.shape = s.mem.shape ∧
      (∀ key i, w'.session.mem.byteAt key i =
        if key = addr.key ∧ addr.start.toNat ≤ i ∧ i < addr.start.toNat + k then data[i - addr.start.toNat]?
        else s.mem.byteAt key i) ∧
      (res = .ok () ↔ k = data.length) ∧
      (p % 2 = 0 → 30 ≤ p → p ≤ 4096 →
        (addr.area = areaInputs ∨ addr.area = areaOutputs ∨ addr.area = areaMerkers ∨ addr.area = areaDB) →
        ∀ key reg, keyOf addr.area addr.dbNumber = .ok key → s.mem.regions key = some reg → reg.readOnly = false →
          addr.start + data.length ≤ reg.data.length → res = .ok ()) := by
  obtain ⟨db, start, -, hdb, hstart, -, hdble⟩ := validateAddress_ok hvalid
  have hlast := validateRangeEnd_ok hrange
  obtain ⟨hsum, hall⟩ := planReadChunks_spec data.length (maxChunkData_pos p writeVarRequestOverhead)
  have haddr : Writable addr db start data.length := ⟨hdb, hdble, hstart, by omega⟩
  have hw : Linked p c { session := s } := ⟨hconn, hc, hs, rfl, rfl⟩
  obtain ⟨res, c', w', j, hrun, hres, hj, hiff, hmem, hfits, hok⟩ :=
    writeChunks_link cfg haddr (fun n hn => (hall n hn).1) 0 (by omega) true hw
  obtain ⟨k, hk⟩ : ∃ k, k = ((planReadChunks data.length (maxChunkData p writeVarRequestOverhead)).take j).sum :=
    ⟨_, rfl⟩
  have hkle : k ≤ data.length := by
    have := List.sum_take_add_sum_drop (planReadChunks data.length (maxChunkData p writeVarRequestOverhead)) j
    omega
  have hlen : (data.take k).length = k := by
    simp
    omega
  rw [← hk, Nat.add_zero] at hfits
  rw [← hk, Nat.add_zero, List.drop_zero] at hmem
  rw [hstart, Int.toNat_natCast]
  refine ⟨res, c', w', j, k, ?_, hres, hk, hfits, ?_, ?_, ?_, ?_⟩
  · unfold writeArea
    rw [hvalid, Eff.bind_ok (Eff.lift_apply _ _), hrange, Eff.bind_ok (Eff.lift_apply _ _),
      Eff.bind_ok (show netErr (serverNet cfg).ctxErr (c, { session := s }) = (.ok (), (c, { session := s })) from rfl),
      Eff.bind_ok (Eff.get_apply _)]
    dsimp only
    rw [hc]
    exact hrun
  · rw [hmem, shape_storeAt]
  · intro key i
    rw [hmem, byteAt_storeAt (by rw [hlen]; exact hfits), hlen]
    split
    · rename_i h
      exact List.getElem?_take_of_lt (by omega)
    · rfl
  · rw [hiff, hk, ← sum_take_eq_sum (fun n hn => (hall n hn).1) hj, hsum]
  · intro heven hp hp' harea key reg hkey hreg hro hend
    have hchunk : maxChunkData p writeVarRequestOverhead = p - 28 :=
      maxChunkData_eq (show 28 < p from Nat.lt_of_lt_of_le (by decide) hp)
    refine hok reg ⟨hdb, hdble, timerOrCounter_eq_false harea, key, hdb ▸ hkey, hreg⟩ hro (by omega) fun n hn => ?_
    have hle := (hall n hn).2
    rw [hchunk] at hle
    exact ⟨by omega, by omega⟩

/-- Three bytes of DB1 in two chunks, with a PDU size of 30. -/
theorem write_area_end_to_end_db1 :
    ∃ c' w', writeArea (serverNet defaultConfig) ⟨areaDB, 1, 0, 0⟩ [0x01, 0x02, 0x03]
        (⟨true, 30, 0, 0⟩, { session := ⟨dbSession.mem, 30⟩ }) = (.ok (), (c', w')) ∧
      w'.session.mem.byteAt { area := areaDB, db := 1 } 2 = some 0x03 := by
  have hkey : keyOf areaDB 1 = .ok { area := areaDB, db := 1 } := rfl
  have hreg : dbSession.mem.regions { area := areaDB, db := 1 } = some ⟨[0x11, 0x22, 0x33], false⟩ := rfl
  obtain ⟨res, c', w', j, k, hrun, -, -, -, -, hbytes, hiff, hok⟩ :=
    write_area_end_to_end defaultConfig ⟨areaDB, 1, 0, 0⟩ [0x01, 0x02, 0x03] (p := 30) (c := ⟨true, 30, 0, 0⟩)
      (s := ⟨dbSession.mem, 30⟩) rfl rfl rfl rfl rfl
  have hres := hok rfl (Nat.le_refl 30) (by decide) (.inr (.inr (.inr rfl))) _ _ hkey hreg rfl (by decide)
  rw [hiff.mp hres] at hbytes
  exact ⟨c', w', hres ▸ hrun, hbytes _ 2⟩

end S7Comm
